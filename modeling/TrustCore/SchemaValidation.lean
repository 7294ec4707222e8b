import TrustCore.SchemaPackages

/-!
# Payloads and the next version of their schema

`validateResourcePayload` checks a payload against the definition of its type. A manifest that is
backward compatible with the previous one may declare optional fields that were unknown before:
a payload that is valid stays valid when what it has under these names fits the declarations.
-/

namespace TrustCore.SchemaValidation

open TrustCore.Utf TrustCore.Numbers TrustCore.Json TrustCore.Dynamic TrustCore.Sha256
open TrustCore.SchemaPackages

/-! ## Validation -/

inductive IssueCode where
  | unknownResourceType
  | missingRequiredField
  | invalidFieldType
  | invalidFormat
  | unknownField
  deriving DecidableEq

structure ValidationIssue where
  path : JsString
  code : IssueCode
  message : JsString
  deriving DecidableEq

structure ValidationResult where
  issues : List ValidationIssue
  preservedUnknownFields : List JsString

def ValidationResult.valid (result : ValidationResult) : Bool := result.issues.isEmpty

/-- What `payload[name]` gives: `__proto__` is inherited as an object, the rest as functions. -/
inductive PayloadLookup where
  | own (value : JsValue)
  | inheritedFunction
  | inheritedObject
  | absent

def lookupPayload (payload : List (JsString × JsValue)) (name : JsString) : PayloadLookup :=
  match payload.lookup name with
  | some .undefined => .absent
  | some value => .own value
  | none =>
    if name = js "__proto__" then .inheritedObject
    else if name ∈ objectPrototype then .inheritedFunction
    else .absent

def isMediaUnit (u : UInt16) : Bool :=
  isDigit u || decide (65 ≤ u.toNat ∧ u.toNat ≤ 90) || decide (97 ≤ u.toNat ∧ u.toNat ≤ 122) ||
    decide (u ∈ js "_!#$&^.+-")

/-- `/^[\w!#$&^_.+-]+\/[\w!#$&^_.+-]+$/`. -/
def isMediaType (value : JsString) : Bool :=
  match splitAt 47 value with
  | [type, subtype] =>
    !type.isEmpty && type.all isMediaUnit && !subtype.isEmpty && subtype.all isMediaUnit
  | _ => false

section Validate

-- Whether `Date.parse` gives a number, and whether `new URL` returns.
variable (isDate isUrl : JsString → Bool)

def matchesKind : PayloadLookup → FieldKind → Bool
  | .own (.array _), .array => true
  | .own (.object _), .object => true
  | .own (.string value), .timestamp => isDate value
  | .own (.string _), .string => true
  | .own (.number _), .number => true
  | .own (.bool _), .boolean => true
  | .inheritedObject, .object => true
  | _, _ => false

def matchesFormat : PayloadLookup → FieldDefinition → Bool
  | .own (.string value), field =>
    match field.format with
    | none => true
    | some .sha256 => isSha256 value
    | some .mediaType => isMediaType value
    | some .uri => isUrl value
  | _, _ => true

def Format.orUndefined (format : Option Format) : JsString :=
  (format.map (·.text)).getD (js "undefined")

/-- The issues of one declared field. -/
def fieldIssues (name : JsString) (field : FieldDefinition) : PayloadLookup → List ValidationIssue
  | .absent =>
    if field.isRequired then
      [⟨js "$." ++ name, .missingRequiredField, name ++ js " is required"⟩]
    else []
  | value =>
    if !matchesKind isDate value field.kind then
      [⟨js "$." ++ name, .invalidFieldType, name ++ js " must be " ++ field.kind.text⟩]
    else if !matchesFormat isUrl value field then
      [⟨js "$." ++ name, .invalidFormat,
        name ++ js " does not match " ++ Format.orUndefined field.format⟩]
    else []

/-- `definition.fields[name]` is there, inherited or not. -/
def Declares (definition : ResourceTypeDefinition) (name : JsString) : Bool :=
  match definition.fields.get name with
  | .absent => false
  | _ => true

def unknownIssues (definition : ResourceTypeDefinition) (name : JsString) :
    List ValidationIssue :=
  if Declares definition name then []
  else if definition.additionalFields = .preserve then []
  else [⟨js "$." ++ name, .unknownField, name ++ js " is not allowed"⟩]

def preservedFields (definition : ResourceTypeDefinition) (name : JsString) : List JsString :=
  if Declares definition name then []
  else if definition.additionalFields = .preserve then [js "$." ++ name]
  else []

def findType (manifest : SchemaPackageManifest) (resourceType : JsString) :
    Option ResourceTypeDefinition :=
  manifest.resourceTypes.find? (·.name == resourceType)

def validateResourcePayload (manifest : SchemaPackageManifest) (resourceType : JsString)
    (payload : List (JsString × JsValue)) : ValidationResult :=
  match findType manifest resourceType with
  | none =>
    ⟨[⟨js "$", .unknownResourceType, js "Unknown resource type: " ++ resourceType⟩], []⟩
  | some definition =>
    { issues :=
        (definition.fields.entries.flatMap fun entry =>
          fieldIssues isDate isUrl entry.1 entry.2 (lookupPayload payload entry.1)) ++
        payload.flatMap fun member => unknownIssues definition member.1
      preservedUnknownFields := payload.flatMap fun member => preservedFields definition member.1 }

end Validate

/-! ## What a compatible manifest keeps -/

section Compatible

variable {isDate isUrl : JsString → Bool} {previous next : SchemaPackageManifest}
  {resourceType : JsString} {payload : List (JsString × JsValue)}
  {before after : ResourceTypeDefinition}

/-- The value that a payload has under a name, if any, is of the kind and format of a field. -/
def Suits (isDate isUrl : JsString → Bool) (payload : List (JsString × JsValue)) (name : JsString)
    (field : FieldDefinition) : Prop :=
  ∀ value, payload.lookup name = some value → value ≠ .undefined →
    matchesKind isDate (.own value) field.kind = true ∧
    matchesFormat isUrl (.own value) field = true

/-- `new Map` keeps the last of the values of a key. -/
theorem lookup_byName (types : List ResourceTypeDefinition) (name : JsString) :
    (byName types).lookup name = types.reverse.find? (·.name == name) := by
  have hfold : ∀ (types : List ResourceTypeDefinition) acc,
      (types.foldl (fun acc definition => setMember definition.name definition acc) acc).lookup
        name = (types.reverse.find? (·.name == name)).or (acc.lookup name) := by
    intro types
    induction types with
    | nil => intro acc; rfl
    | cons definition types ih =>
      intro acc
      rw [List.foldl_cons, ih, List.reverse_cons, List.find?_append]
      by_cases h : definition.name = name
      · subst h
        rw [lookup_setMember_self]
        cases types.reverse.find? (·.name == definition.name) with
        | none => simp
        | some found => simp
      · rw [lookup_setMember_ne _ _ (Ne.symm h)]
        cases types.reverse.find? (·.name == name) with
        | none => simp [h]
        | some found => simp
  rw [byName, hfold, List.lookup_nil, Option.or_none]

def UniqueTypes (manifest : SchemaPackageManifest) : Prop :=
  (manifest.resourceTypes.map (·.name)).Nodup

theorem lookup_byName_of_unique (hunique : UniqueTypes previous) (name : JsString) :
    (byName previous.resourceTypes).lookup name = findType previous name := by
  rw [lookup_byName, findType]
  cases hfound : previous.resourceTypes.find? (·.name == name) with
  | none =>
    rw [List.find?_eq_none] at hfound ⊢
    exact fun definition hmem => hfound definition (List.mem_reverse.mp hmem)
  | some definition =>
    have hmem := List.mem_of_find?_eq_some hfound
    have hname : definition.name = name := by simpa using List.find?_some hfound
    cases hlast : previous.resourceTypes.reverse.find? (·.name == name) with
    | none =>
      rw [List.find?_eq_none] at hlast
      exact absurd (by simp [hname]) (hlast definition (List.mem_reverse.mpr hmem))
    | some last =>
      have hname' : last.name = name := by simpa using List.find?_some hlast
      rw [List.inj_on_of_nodup_map hunique (List.mem_reverse.mp (List.mem_of_find?_eq_some hlast))
        hmem (hname'.trans hname.symm)]

/-- Two definitions of one type whose comparison finds nothing that breaks. -/
structure Compatible (before after : ResourceTypeDefinition) : Prop where
  preserves : before.additionalFields = .preserve → after.additionalFields = .preserve
  keeps : ∀ name field, (name, field) ∈ before.fields.entries → ∃ field',
    after.fields.get name = .own field' ∧ field.kind = field'.kind ∧ field.format = field'.format ∧
      (field'.isRequired = true → field.isRequired = true)
  adds : ∀ name field, (name, field) ∈ after.fields.entries → before.fields.get name = .absent →
    field.isRequired = false

/-- No change breaks. -/
def Quiet (changes : List CompatibilityChange) : Prop := changes.any (·.breaking) = false

theorem quiet_append {a b : List CompatibilityChange} : Quiet (a ++ b) ↔ Quiet a ∧ Quiet b := by
  rw [Quiet, List.any_append, Bool.or_eq_false_iff]
  rfl

theorem Quiet.of_mem {α : Type} {entries : List α} {f : α → List CompatibilityChange} {entry : α}
    (h : Quiet (entries.flatMap f)) (hmem : entry ∈ entries) : Quiet (f entry) := by
  rw [Quiet, List.any_flatMap, List.any_eq_false] at h
  exact (Bool.not_eq_true _).mp (h entry hmem)

theorem compareField_quiet {path : JsString} {field : FieldDefinition} {found : FieldLookup}
    (h : Quiet (compareField path field found)) : ∃ field',
      found = .own field' ∧ field.kind = field'.kind ∧ field.format = field'.format ∧
        (field'.isRequired = true → field.isRequired = true) := by
  cases found with
  | absent => cases h
  | inherited => cases h
  | own field' =>
    obtain ⟨hsame, hrequired⟩ := quiet_append.mp h
    refine ⟨field', rfl, ?_⟩
    by_cases hdiffers : field.kind ≠ field'.kind ∨ field.format ≠ field'.format
    · rw [if_pos hdiffers] at hsame
      cases hsame
    · rw [not_or, not_not, not_not] at hdiffers
      refine ⟨hdiffers.1, hdiffers.2, ?_⟩
      intro hafter
      cases hbefore : field.isRequired with
      | true => rfl
      | false =>
        rw [hbefore, hafter] at hrequired
        cases hrequired

theorem compareNewField_quiet {path : JsString} {field : FieldDefinition}
    (h : Quiet (compareNewField path field .absent)) : field.isRequired = false := by
  cases hrequired : field.isRequired with
  | false => rfl
  | true =>
    rw [compareNewField, if_pos hrequired] at h
    cases h

theorem compareResourceType_quiet {found : Option ResourceTypeDefinition}
    (h : Quiet (compareResourceType resourceType before found)) :
    ∃ after, found = some after ∧ Compatible before after := by
  cases found with
  | none => cases h
  | some after =>
    obtain ⟨hpolicy, hfields⟩ := quiet_append.mp h
    obtain ⟨hkept, hadded⟩ := quiet_append.mp hfields
    refine ⟨after, rfl, ?_, ?_, ?_⟩
    · intro hbefore
      cases hafter : after.additionalFields with
      | preserve => rfl
      | reject =>
        rw [if_pos ⟨hbefore, hafter⟩] at hpolicy
        cases hpolicy
    · intro name field hmem
      exact compareField_quiet (hkept.of_mem hmem)
    · intro name field hmem habsent
      have hquiet := hadded.of_mem hmem
      rw [habsent] at hquiet
      exact compareNewField_quiet hquiet

theorem exists_after_of_quiet (hprevious : UniqueTypes previous) (hnext : UniqueTypes next)
    (hquiet : Quiet (manifestChanges previous next))
    (hbefore : findType previous resourceType = some before) :
    ∃ after, findType next resourceType = some after ∧ Compatible before after := by
  have htypes := (quiet_append.mp (quiet_append.mp (quiet_append.mp hquiet).1).1).1
  rw [← lookup_byName_of_unique hprevious] at hbefore
  have htype := htypes.of_mem (mem_of_lookup hbefore)
  rw [lookup_byName_of_unique hnext] at htype
  exact compareResourceType_quiet htype

theorem quiet_of_backwardCompatible {report : CompatibilityReport}
    (h : classifyCompatibility (some previous) next = .ok report)
    (hreport : report.classification = .backwardCompatible) :
    Quiet (manifestChanges previous next) := by
  rw [classifyCompatibility] at h
  split at h
  · cases h
  · cases h
    rw [Quiet, ← Bool.not_eq_true]
    intro hbreaks
    rw [if_pos hbreaks] at hreport
    cases hreport

/-! ## Valid payloads -/

theorem fieldIssues_own {name : JsString} {field : FieldDefinition} {value : JsValue} :
    fieldIssues isDate isUrl name field (.own value) = [] ↔
      matchesKind isDate (.own value) field.kind = true ∧
      matchesFormat isUrl (.own value) field = true := by
  cases hkind : matchesKind isDate (.own value) field.kind with
  | false => simp [fieldIssues, hkind]
  | true =>
    cases hformat : matchesFormat isUrl (.own value) field with
    | false => simp [fieldIssues, hkind, hformat]
    | true => simp [fieldIssues, hkind, hformat]

theorem get_eq_absent {fields : Fields} {name : JsString} (h : fields.get name = .absent) :
    fields.entries.lookup name = none ∧ name ∉ objectPrototype := by
  rw [Fields.get] at h
  split at h
  · cases h
  · next hnone =>
    split at h
    · cases h
    · next hname => exact ⟨hnone, hname⟩

/-- Nothing is inherited under a name that no prototype has. -/
theorem lookupPayload_plain {name : JsString} (hname : name ∉ objectPrototype) :
    lookupPayload payload name =
      match payload.lookup name with
      | none => .absent
      | some .undefined => .absent
      | some value => .own value := by
  have hproto : name ≠ js "__proto__" := by
    rintro rfl
    exact hname (by decide)
  rw [lookupPayload]
  cases payload.lookup name with
  | none => simp [hname, hproto]
  | some value => cases value <;> rfl

theorem fieldIssues_new {name : JsString} {field : FieldDefinition} (hname : name ∉ objectPrototype)
    (hoptional : field.isRequired = false) :
    fieldIssues isDate isUrl name field (lookupPayload payload name) = [] ↔
      Suits isDate isUrl payload name field := by
  rw [lookupPayload_plain hname, Suits]
  cases hvalue : payload.lookup name with
  | none => simp [fieldIssues, hoptional]
  | some value =>
    cases value with
    | undefined => simp [fieldIssues, hoptional]
    | null => simp [fieldIssues_own]
    | bool b => simp [fieldIssues_own]
    | number n => simp [fieldIssues_own]
    | string s => simp [fieldIssues_own]
    | array items => simp [fieldIssues_own]
    | object members => simp [fieldIssues_own]

theorem matchesFormat_congr {field field' : FieldDefinition} (h : field.format = field'.format)
    (found : PayloadLookup) : matchesFormat isUrl found field = matchesFormat isUrl found field' := by
  cases found with
  | own value => cases value <;> simp [matchesFormat, h]
  | inheritedFunction => rfl
  | inheritedObject => rfl
  | absent => rfl

/-- A declaration that asks no more of a value than another one does. -/
theorem fieldIssues_of_kept {name : JsString} {field field' : FieldDefinition}
    {found : PayloadLookup} (hkind : field.kind = field'.kind)
    (hformat : field.format = field'.format)
    (hrequired : field'.isRequired = true → field.isRequired = true)
    (h : fieldIssues isDate isUrl name field found = []) :
    fieldIssues isDate isUrl name field' found = [] := by
  cases found with
  | absent =>
    cases hafter : field'.isRequired with
    | false => simp [fieldIssues, hafter]
    | true => simp [fieldIssues, hrequired hafter] at h
  | own value =>
    rw [fieldIssues_own] at h ⊢
    rw [← hkind, ← matchesFormat_congr hformat]
    exact h
  | inheritedFunction => exact absurd h (by simp [fieldIssues, matchesKind])
  | inheritedObject =>
    simp only [fieldIssues, ← hkind, ← hformat, ← matchesFormat_congr hformat] at h ⊢
    exact h

theorem get_own {fields : Fields} {name : JsString} {field : FieldDefinition} :
    fields.get name = .own field ↔ (name, field) ∈ fields.entries := by
  constructor
  · intro h
    rw [Fields.get] at h
    split at h
    · next found hfound =>
      cases h
      exact mem_of_lookup hfound
    · split at h
      · cases h
      · cases h
  · intro hmem
    rw [Fields.get, lookup_of_mem fields.nodup hmem]

theorem get_inherited {fields : Fields} {name : JsString} (h : fields.get name = .inherited) :
    name ∈ objectPrototype := by
  rw [Fields.get] at h
  split at h
  · cases h
  · split at h
    · assumption
    · cases h

theorem declares_iff {definition : ResourceTypeDefinition} {name : JsString} :
    Declares definition name = true ↔ definition.fields.get name ≠ .absent := by
  unfold Declares
  cases definition.fields.get name with
  | own field => simp
  | inherited => simp
  | absent => simp

/-- A name that is declared stays declared. -/
theorem Compatible.declares (h : Compatible before after) {name : JsString}
    (hdeclares : Declares before name = true) : Declares after name = true := by
  rw [declares_iff] at hdeclares ⊢
  cases hbefore : before.fields.get name with
  | absent => exact absurd hbefore hdeclares
  | own field =>
    obtain ⟨field', hfield', -⟩ := h.keeps name field (get_own.mp hbefore)
    rw [hfield']
    nofun
  | inherited =>
    intro hafter
    exact (get_eq_absent hafter).2 (get_inherited hbefore)

theorem unknownIssues_eq_nil {definition : ResourceTypeDefinition} {name : JsString} :
    unknownIssues definition name = [] ↔
      Declares definition name = true ∨ definition.additionalFields = .preserve := by
  rw [unknownIssues]
  by_cases hdeclares : Declares definition name = true
  · simp [hdeclares]
  · by_cases hpolicy : definition.additionalFields = .preserve
    · simp [hpolicy]
    · simp [hdeclares, hpolicy]

/-- A payload is valid when no declared field and no other name of it has an issue. -/
theorem valid_iff {manifest : SchemaPackageManifest} {definition : ResourceTypeDefinition}
    (h : findType manifest resourceType = some definition) :
    (validateResourcePayload isDate isUrl manifest resourceType payload).valid = true ↔
      (∀ name field, (name, field) ∈ definition.fields.entries →
        fieldIssues isDate isUrl name field (lookupPayload payload name) = []) ∧
      ∀ member ∈ payload,
        Declares definition member.1 = true ∨ definition.additionalFields = .preserve := by
  simp only [validateResourcePayload, h, ValidationResult.valid, List.isEmpty_iff,
    List.append_eq_nil_iff, List.flatMap_eq_nil_iff, Prod.forall, unknownIssues_eq_nil]

/-- No field that the next definition declares and the previous one does not has the name of an
inherited property. -/
def PlainAdditions (before after : ResourceTypeDefinition) : Prop :=
  ∀ name field, (name, field) ∈ after.fields.entries → before.fields.get name ≠ .inherited

/-- What a payload has under the names that the next definition declares and the previous one does
not suits the declarations. -/
def SuitsAdditions (isDate isUrl : JsString → Bool) (before after : ResourceTypeDefinition)
    (payload : List (JsString × JsValue)) : Prop :=
  ∀ name field, (name, field) ∈ after.fields.entries → before.fields.get name = .absent →
    Suits isDate isUrl payload name field

/-- A payload that is valid for one definition has its type in every definition that is called
backward compatible with it, and is valid there exactly if what it has under the new names suits
their declarations. -/
theorem valid_next_iff {report : CompatibilityReport} (hprevious : UniqueTypes previous)
    (hnext : UniqueTypes next) (h : classifyCompatibility (some previous) next = .ok report)
    (hreport : report.classification = .backwardCompatible)
    (hbefore : findType previous resourceType = some before)
    (hvalid : (validateResourcePayload isDate isUrl previous resourceType payload).valid = true) :
    ∃ after, findType next resourceType = some after ∧
      (PlainAdditions before after →
        ((validateResourcePayload isDate isUrl next resourceType payload).valid = true ↔
          SuitsAdditions isDate isUrl before after payload)) := by
  obtain ⟨after, hafter, hcompatible⟩ :=
    exists_after_of_quiet hprevious hnext (quiet_of_backwardCompatible h hreport) hbefore
  refine ⟨after, hafter, fun hplain => ?_⟩
  rw [valid_iff hbefore] at hvalid
  obtain ⟨hfields, hmembers⟩ := hvalid
  have hmembers' : ∀ member ∈ payload,
      Declares after member.1 = true ∨ after.additionalFields = .preserve := by
    intro member hmem
    rcases hmembers member hmem with hdeclares | hpolicy
    · exact .inl (hcompatible.declares hdeclares)
    · exact .inr (hcompatible.preserves hpolicy)
  rw [valid_iff hafter, and_iff_left hmembers']
  -- The fields of both definitions have no issue, so the new ones decide.
  have hkept : ∀ name field' field, (name, field') ∈ after.fields.entries →
      before.fields.get name = .own field →
      fieldIssues isDate isUrl name field' (lookupPayload payload name) = [] := by
    intro name field' field hmem hown
    have hold := get_own.mp hown
    obtain ⟨field'', hfield'', hkind, hformat, hrequired⟩ := hcompatible.keeps name field hold
    rw [get_own.mpr hmem] at hfield''
    cases hfield''
    exact fieldIssues_of_kept hkind hformat hrequired (hfields name field hold)
  constructor
  · intro hissues name field hmem habsent
    rw [← fieldIssues_new (get_eq_absent habsent).2 (hcompatible.adds name field hmem habsent)]
    exact hissues name field hmem
  · intro hsuits name field hmem
    cases hfound : before.fields.get name with
    | own old => exact hkept name field old hmem hfound
    | inherited => exact absurd hfound (hplain name field hmem)
    | absent =>
      rw [fieldIssues_new (get_eq_absent hfound).2 (hcompatible.adds name field hmem hfound)]
      exact hsuits name field hmem hfound

end Compatible

section Example

def textField (required : Option Bool) : FieldDefinition := ⟨.string, required, none, none⟩

/-- A package with one type that keeps unknown fields. -/
def noteManifest (version : String) (fields : Fields) : SchemaPackageManifest where
  namespaceName := js "app"
  name := js "notes"
  version := js version
  title := js "Notes"
  description := js "Test notes"
  classification := .application
  resourceTypes := [⟨js "Note", js "A note", fields, .preserve⟩]
  relationships := []
  compatibleArchiveFormat := js "trust-core-archive/1.0.0"

def noFields : Fields := ⟨[], List.nodup_nil⟩

def oneField (name : String) (field : FieldDefinition) : Fields :=
  ⟨[(js name, field)], List.nodup_singleton _⟩

theorem unique_noteManifest (version : String) (fields : Fields) :
    UniqueTypes (noteManifest version fields) := List.nodup_singleton _

def subtitleManifest : SchemaPackageManifest :=
  noteManifest "1.1.0" (oneField "subtitle" (textField none))

/-- An optional field is added under a name that a payload has used for something else. -/
theorem used_name_declared :
    (classifyCompatibility (some (noteManifest "1.0.0" noFields)) subtitleManifest).map
        (·.classification) = .ok .backwardCompatible ∧
    (validateResourcePayload (fun _ => true) (fun _ => true) (noteManifest "1.0.0" noFields)
      (js "Note") [(js "subtitle", .bool true)]).valid = true ∧
    (validateResourcePayload (fun _ => true) (fun _ => true) subtitleManifest (js "Note")
      [(js "subtitle", .bool true)]).valid = false := ⟨rfl, rfl, rfl⟩

/-- A text under the name stays valid. -/
theorem valid_next_iff_subtitle :
    (validateResourcePayload (fun _ => true) (fun _ => true) subtitleManifest (js "Note")
      [(js "subtitle", .string (js "Diary"))]).valid = true := by
  have hclassified : classifyCompatibility (some (noteManifest "1.0.0" noFields))
      subtitleManifest = .ok ⟨.backwardCompatible, some (js "app/notes/1.0.0"),
        [added (js "resourceTypes.Note.fields.subtitle") "Optional field was added." false]⟩ := rfl
  have hvalid : (validateResourcePayload (fun _ => true) (fun _ => true)
      (noteManifest "1.0.0" noFields) (js "Note")
      [(js "subtitle", .string (js "Diary"))]).valid = true := rfl
  obtain ⟨after, hafter, hnext⟩ := valid_next_iff (unique_noteManifest _ _) (unique_noteManifest _ _)
    hclassified rfl rfl hvalid
  cases hafter
  apply (hnext ?_).mpr
  · intro name field hmem _ value hvalue _
    obtain ⟨rfl, rfl⟩ := Prod.mk.inj (List.mem_singleton.mp hmem)
    obtain rfl : JsValue.string (js "Diary") = value := Option.some.inj hvalue
    exact ⟨rfl, rfl⟩
  · intro name field hmem hinherited
    obtain ⟨rfl, -⟩ := Prod.mk.inj (List.mem_singleton.mp hmem)
    cases hinherited

-- A required field with the name of an inherited property is not taken for a new one.
example :
    (classifyCompatibility (some (noteManifest "1.0.0" noFields))
      (noteManifest "1.1.0" (oneField "toString" (textField (some true))))).map (·.classification) =
        .ok .backwardCompatible ∧
    (validateResourcePayload (fun _ => true) (fun _ => true)
      (noteManifest "1.1.0" (oneField "toString" (textField (some true)))) (js "Note") []).valid =
        false := ⟨rfl, rfl⟩

end Example

end TrustCore.SchemaValidation
