import TrustCore.AuditLog
import TrustCore.SchemaValidation

/-!
# Payloads that conform to their type

What `validateResourcePayload` is for, stated over own members, and the payloads
on which it says so. The fields and the payload are plain objects that are indexed
by names, and an index also finds what every object inherits.
-/

namespace TrustCore.PayloadConformance

open TrustCore.Utf TrustCore.Json TrustCore.Dynamic TrustCore.SchemaPackages TrustCore.SchemaValidation
open TrustCore.AuditLog (JsonObject)

section Spec

variable (isDate isUrl : JsString → Bool) (definition : ResourceTypeDefinition)
  (payload : JsonObject)

def Declared (name : JsString) : Prop := ∃ field, (name, field) ∈ definition.fields.entries

def HasMember (name : JsString) : Prop := ∃ value, (name, value) ∈ payload.members

/-- The own members of a payload are what the declarations ask for. -/
structure Conforms : Prop where
  required : ∀ name field, (name, field) ∈ definition.fields.entries → field.isRequired = true →
    HasMember payload name
  matching : ∀ name field value, (name, field) ∈ definition.fields.entries →
    (name, value) ∈ payload.members →
      matchesKind isDate (.own value) field.kind = true ∧
      matchesFormat isUrl (.own value) field = true
  known : definition.additionalFields = .reject → ∀ name, HasMember payload name →
    Declared definition name

/-- The payload conforms to the type of that name. -/
def ConformsTo (manifest : SchemaPackageManifest) (resourceType : JsString) : Prop :=
  ∃ definition ∈ manifest.resourceTypes, definition.name = resourceType ∧
    Conforms isDate isUrl definition payload

/-- What conformance asks, but for the names that every object inherits: of these, only that the
values of own members match. -/
structure PlainlyConforms : Prop where
  required : ∀ name field, (name, field) ∈ definition.fields.entries → name ∉ objectPrototype →
    field.isRequired = true → HasMember payload name
  matching : ∀ name field value, (name, field) ∈ definition.fields.entries →
    (name, value) ∈ payload.members →
      matchesKind isDate (.own value) field.kind = true ∧
      matchesFormat isUrl (.own value) field = true
  known : definition.additionalFields = .reject → ∀ name, name ∉ objectPrototype →
    HasMember payload name → Declared definition name

/-- A field that the payload lacks, under a name that it inherits. -/
def Inherits (name : JsString) (field : FieldDefinition) : Prop :=
  (name, field) ∈ definition.fields.entries ∧ name ∈ objectPrototype ∧ ¬ HasMember payload name

/-- The one inherited value that matches a kind is the prototype itself. -/
def MatchesPrototype (name : JsString) (field : FieldDefinition) : Prop :=
  name = js "__proto__" ∧ field.kind = .object

/-- A member that is not declared, under a name that the fields inherit. -/
def Smuggles : Prop :=
  definition.additionalFields = .reject ∧
    ∃ name ∈ objectPrototype, HasMember payload name ∧ ¬ Declared definition name

/-- The inherited names make no difference: the payload fails without them, or they refuse it
rightly, or they refuse nothing and hide nothing. -/
inductive Unaffected : Prop where
  | plain (h : ¬ PlainlyConforms isDate isUrl definition payload)
  | refused (hrefused : ∃ name field, Inherits definition payload name field ∧
      ¬ MatchesPrototype name field)
      (hrightly : (∃ name field, Inherits definition payload name field ∧
        field.isRequired = true) ∨ Smuggles definition payload)
  | clean (hfields : ∀ name field, Inherits definition payload name field →
      MatchesPrototype name field ∧ field.isRequired = false)
      (hmembers : ¬ Smuggles definition payload)

end Spec

/-! ## Lookups of a payload -/

section Lookups

variable {isDate isUrl : JsString → Bool} {definition : ResourceTypeDefinition}
  {payload : JsonObject} {name : JsString} {field : FieldDefinition}

theorem lookup_of_member {value : JsValue} (h : (name, value) ∈ payload.members) :
    lookupPayload payload.members name = .own value := by
  have hjson := payload.json
  rw [isJson, Bool.and_eq_true, Columns.isJsonMembers_iff, decide_eq_true_eq] at hjson
  have hvalue : isJson value = true := hjson.1 _ h
  rw [lookupPayload, lookup_of_mem hjson.2 h]
  cases value with
  | undefined => cases hvalue
  | _ => rfl

theorem lookup_of_not_member (h : ¬ HasMember payload name) :
    payload.members.lookup name = none := by
  cases hvalue : payload.members.lookup name with
  | none => rfl
  | some value => exact absurd ⟨value, mem_of_lookup hvalue⟩ h

/-- A missing field is an issue when it is required, or when the lookup finds something that is
inherited and does not match. -/
theorem fieldIssues_missing (h : ¬ HasMember payload name) :
    fieldIssues isDate isUrl name field (lookupPayload payload.members name) = [] ↔
      if name ∈ objectPrototype then MatchesPrototype name field else field.isRequired = false := by
  have hnone := lookup_of_not_member h
  by_cases hproto : name = js "__proto__"
  · have hmem : name ∈ objectPrototype := by
      rw [hproto]
      decide
    rw [if_pos hmem, lookupPayload, hnone]
    simp only [hproto, if_true, MatchesPrototype, true_and]
    cases hkind : field.kind <;> simp [fieldIssues, matchesKind, matchesFormat, hkind]
  · by_cases hmem : name ∈ objectPrototype
    · rw [if_pos hmem, lookupPayload, hnone]
      simp [hproto, hmem, MatchesPrototype, fieldIssues, matchesKind]
    · rw [if_neg hmem, lookupPayload, hnone]
      simp [hproto, hmem, fieldIssues]

theorem fieldIssues_member {value : JsValue} (h : (name, value) ∈ payload.members) :
    fieldIssues isDate isUrl name field (lookupPayload payload.members name) = [] ↔
      matchesKind isDate (.own value) field.kind = true ∧
      matchesFormat isUrl (.own value) field = true := by
  rw [lookup_of_member h, fieldIssues_own]

theorem declares_iff_declared :
    Declares definition name = true ↔ Declared definition name ∨ name ∈ objectPrototype := by
  rw [declares_iff, Declared]
  constructor
  · intro h
    cases hfound : definition.fields.get name with
    | own field => exact .inl ⟨field, get_own.mp hfound⟩
    | inherited => exact .inr (get_inherited hfound)
    | absent => exact absurd hfound h
  · intro h habsent
    obtain ⟨hnone, hname⟩ := get_eq_absent habsent
    rcases h with ⟨field, hmem⟩ | hinherited
    · rw [lookup_of_mem definition.fields.nodup hmem] at hnone
      cases hnone
    · exact hname hinherited

end Lookups

/-! ## When the code and conformance agree -/

section Agreement

variable {isDate isUrl : JsString → Bool} {definition : ResourceTypeDefinition}
  {payload : JsonObject} {manifest : SchemaPackageManifest} {resourceType : JsString}

theorem fields_clear_iff :
    (∀ name field, (name, field) ∈ definition.fields.entries →
      fieldIssues isDate isUrl name field (lookupPayload payload.members name) = []) ↔
    (∀ name field value, (name, field) ∈ definition.fields.entries →
      (name, value) ∈ payload.members →
        matchesKind isDate (.own value) field.kind = true ∧
        matchesFormat isUrl (.own value) field = true) ∧
    (∀ name field, (name, field) ∈ definition.fields.entries → name ∉ objectPrototype →
      field.isRequired = true → HasMember payload name) ∧
    ∀ name field, Inherits definition payload name field → MatchesPrototype name field := by
  constructor
  · intro h
    refine ⟨?_, ?_, ?_⟩
    · intro name field value hfield hvalue
      exact (fieldIssues_member hvalue).mp (h name field hfield)
    · intro name field hfield hname hrequired
      by_contra hmissing
      have hclear := (fieldIssues_missing hmissing).mp (h name field hfield)
      rw [if_neg hname, hrequired] at hclear
      cases hclear
    · rintro name field ⟨hfield, hname, hmissing⟩
      have hclear := (fieldIssues_missing hmissing).mp (h name field hfield)
      rwa [if_pos hname] at hclear
  · rintro ⟨hmatching, hrequired, hinherited⟩ name field hfield
    by_cases hmember : HasMember payload name
    · obtain ⟨value, hvalue⟩ := hmember
      exact (fieldIssues_member hvalue).mpr (hmatching name field value hfield hvalue)
    · rw [fieldIssues_missing hmember]
      split
      · next hname => exact hinherited name field ⟨hfield, hname, hmember⟩
      · next hname =>
        rw [← Bool.not_eq_true]
        exact fun h => hmember (hrequired name field hfield hname h)

theorem members_known_iff :
    (∀ member ∈ payload.members,
      Declares definition member.1 = true ∨ definition.additionalFields = .preserve) ↔
    (definition.additionalFields = .reject → ∀ name, name ∉ objectPrototype →
      HasMember payload name → Declared definition name) := by
  constructor
  · rintro h hreject name hname ⟨value, hvalue⟩
    rcases h (name, value) hvalue with hdeclares | hpreserve
    · exact (declares_iff_declared.mp hdeclares).resolve_right hname
    · rw [hreject] at hpreserve
      cases hpreserve
  · rintro h ⟨name, value⟩ hmem
    cases hpolicy : definition.additionalFields with
    | preserve => exact .inr rfl
    | reject =>
      refine .inl (declares_iff_declared.mpr ?_)
      by_cases hname : name ∈ objectPrototype
      · exact .inr hname
      · exact .inl (h hpolicy name hname ⟨value, hmem⟩)

/-- What the code accepts: an inherited value is checked as a value, an inherited name is known. -/
theorem valid_iff_plainly (h : findType manifest resourceType = some definition) :
    (validateResourcePayload isDate isUrl manifest resourceType payload.members).valid = true ↔
      PlainlyConforms isDate isUrl definition payload ∧
      ∀ name field, Inherits definition payload name field → MatchesPrototype name field := by
  rw [valid_iff h, fields_clear_iff, members_known_iff]
  constructor
  · rintro ⟨⟨hmatching, hrequired, hinherited⟩, hknown⟩
    exact ⟨⟨hrequired, hmatching, hknown⟩, hinherited⟩
  · rintro ⟨⟨hrequired, hmatching, hknown⟩, hinherited⟩
    exact ⟨⟨hmatching, hrequired, hinherited⟩, hknown⟩

/-- What conformance asks beside: no inherited name is required or unknown. -/
theorem conforms_iff_plainly :
    Conforms isDate isUrl definition payload ↔
      PlainlyConforms isDate isUrl definition payload ∧
      (∀ name field, Inherits definition payload name field → field.isRequired = false) ∧
      ¬ Smuggles definition payload := by
  constructor
  · intro h
    refine ⟨⟨fun name field hfield _ => h.required name field hfield, h.matching,
      fun hreject name _ => h.known hreject name⟩, ?_, ?_⟩
    · rintro name field ⟨hfield, -, hmissing⟩
      rw [← Bool.not_eq_true]
      exact fun hrequired => hmissing (h.required name field hfield hrequired)
    · rintro ⟨hreject, name, -, hmember, hundeclared⟩
      exact hundeclared (h.known hreject name hmember)
  · rintro ⟨hplain, hoptional, hnone⟩
    refine ⟨?_, hplain.matching, ?_⟩
    · intro name field hfield hrequired
      by_contra hmissing
      by_cases hname : name ∈ objectPrototype
      · rw [hoptional name field ⟨hfield, hname, hmissing⟩] at hrequired
        cases hrequired
      · exact hmissing (hplain.required name field hfield hname hrequired)
    · intro hreject name hmember
      by_cases hname : name ∈ objectPrototype
      · by_contra hundeclared
        exact hnone ⟨hreject, name, hname, hmember, hundeclared⟩
      · exact hplain.known hreject name hname hmember

theorem agree_iff_unaffected :
    (PlainlyConforms isDate isUrl definition payload ∧
        (∀ name field, Inherits definition payload name field → MatchesPrototype name field) ↔
      Conforms isDate isUrl definition payload) ↔
    Unaffected isDate isUrl definition payload := by
  rw [conforms_iff_plainly]
  by_cases hplain : PlainlyConforms isDate isUrl definition payload
  case neg => exact ⟨fun _ => .plain hplain, fun _ => by simp [hplain]⟩
  simp only [hplain, true_and]
  constructor
  · intro hagree
    by_cases haccepts : ∀ name field, Inherits definition payload name field →
        MatchesPrototype name field
    · obtain ⟨hoptional, hnone⟩ := hagree.mp haccepts
      exact .clean (fun name field h => ⟨haccepts name field h, hoptional name field h⟩) hnone
    · have hrightly := mt hagree.mpr haccepts
      push Not at haccepts
      refine .refused haccepts ?_
      by_contra hnot
      push Not at hnot
      exact hrightly ⟨fun name field h => (Bool.not_eq_true _).mp (hnot.1 name field h), hnot.2⟩
  · rintro (h | ⟨⟨name, field, hinherits, hdiffers⟩, hrightly⟩ | ⟨hfields, hmembers⟩)
    · exact absurd hplain h
    · constructor
      · exact fun haccepts => absurd (haccepts name field hinherits) hdiffers
      · rintro ⟨hoptional, hnone⟩
        rcases hrightly with ⟨name', field', hinherits', hrequired⟩ | hsmuggles
        · rw [hoptional name' field' hinherits'] at hrequired
          cases hrequired
        · exact absurd hsmuggles hnone
    · exact ⟨fun _ => ⟨fun name field h => (hfields name field h).2, hmembers⟩,
        fun _ name field h => (hfields name field h).1⟩

theorem findType_eq_some (hunique : UniqueTypes manifest) (hmem : definition ∈ manifest.resourceTypes)
    (hname : definition.name = resourceType) :
    findType manifest resourceType = some definition := by
  rw [findType]
  cases hfound : manifest.resourceTypes.find? (·.name == resourceType) with
  | none =>
    have hnone := List.find?_eq_none.mp hfound definition hmem
    simp [hname] at hnone
  | some found =>
    have hsame : found.name = resourceType := by simpa using List.find?_some hfound
    rw [List.inj_on_of_nodup_map hunique (List.mem_of_find?_eq_some hfound) hmem
      (hsame.trans hname.symm)]

/-- A payload is reported valid when it conforms, and only then, exactly where the names that every
object inherits make no difference. -/
theorem valid_iff_conforms (isDate isUrl : JsString → Bool) (manifest : SchemaPackageManifest)
    (hunique : UniqueTypes manifest) (resourceType : JsString) (payload : JsonObject) :
    ((validateResourcePayload isDate isUrl manifest resourceType payload.members).valid = true ↔
      ConformsTo isDate isUrl payload manifest resourceType) ↔
    ∀ definition ∈ manifest.resourceTypes, definition.name = resourceType →
      Unaffected isDate isUrl definition payload := by
  cases hfound : findType manifest resourceType with
  | none =>
    have hnone : ∀ definition ∈ manifest.resourceTypes, definition.name ≠ resourceType := by
      intro definition hmem hname
      rw [findType_eq_some hunique hmem hname] at hfound
      cases hfound
    constructor
    · exact fun _ definition hmem hname => absurd hname (hnone definition hmem)
    · intro _
      constructor
      · simp [validateResourcePayload, hfound, ValidationResult.valid]
      · rintro ⟨definition, hmem, hname, -⟩
        exact absurd hname (hnone definition hmem)
  | some definition =>
    have hmem := List.mem_of_find?_eq_some hfound
    have hname : definition.name = resourceType := by simpa using List.find?_some hfound
    have honly : ∀ other ∈ manifest.resourceTypes, other.name = resourceType → other = definition :=
      fun other hother hsame => List.inj_on_of_nodup_map hunique hother hmem (hsame.trans hname.symm)
    have hconforms : ConformsTo isDate isUrl payload manifest resourceType ↔
        Conforms isDate isUrl definition payload := by
      constructor
      · rintro ⟨other, hother, hsame, h⟩
        rwa [honly other hother hsame] at h
      · exact fun h => ⟨definition, hmem, hname, h⟩
    rw [valid_iff_plainly hfound, hconforms, agree_iff_unaffected]
    constructor
    · intro h other hother hsame
      rwa [honly other hother hsame]
    · exact fun h => h definition hmem hname

end Agreement

section Example

/-- A package with one type that refuses unknown fields. -/
def strictManifest (fields : Fields) : SchemaPackageManifest :=
  { noteManifest "1.0.0" fields with
    resourceTypes := [⟨js "Note", js "A note", fields, .reject⟩] }

def emptyPayload : JsonObject := ⟨[], AuditLog.isJson_empty⟩

def toStringPayload : JsonObject := ⟨[(js "toString", .bool true)], by decide⟩

def titlePayload : JsonObject := ⟨[(js "title", .string (js "a"))], by decide⟩

def colourPayload : JsonObject :=
  ⟨[(js "title", .string (js "a")), (js "colour", .null)], by decide⟩

/-- A payload with the title alone is valid, one with another member is not. -/
theorem valid_iff_conforms_title :
    (∀ payload ∈ [titlePayload, colourPayload],
      ((validateResourcePayload (fun _ => true) (fun _ => true)
          (strictManifest (oneField "title" (textField none))) (js "Note") payload.members).valid =
            true ↔
        ConformsTo (fun _ => true) (fun _ => true) payload
          (strictManifest (oneField "title" (textField none))) (js "Note"))) ∧
    (validateResourcePayload (fun _ => true) (fun _ => true)
      (strictManifest (oneField "title" (textField none))) (js "Note")
      titlePayload.members).valid = true ∧
    (validateResourcePayload (fun _ => true) (fun _ => true)
      (strictManifest (oneField "title" (textField none))) (js "Note")
      colourPayload.members).valid = false := by
  refine ⟨?_, by decide +kernel, by decide +kernel⟩
  intro payload hpayload
  have hnames : ∀ m ∈ payload.members, m.1 ∉ objectPrototype := by
    rcases List.mem_pair.mp hpayload with rfl | rfl <;> decide
  apply (valid_iff_conforms (fun _ => true) (fun _ => true)
    (strictManifest (oneField "title" (textField none))) (List.nodup_singleton _) (js "Note")
    payload).mpr
  intro definition hmem _
  rw [List.mem_singleton.mp hmem]
  refine .clean ?_ ?_
  · rintro name field ⟨hfield, hname, -⟩
    obtain ⟨rfl, -⟩ := Prod.mk.inj (List.mem_singleton.mp hfield)
    exact absurd hname (by decide)
  · rintro ⟨-, name, hname, ⟨value, hvalue⟩, -⟩
    exact hnames _ hvalue hname

/-- An optional field with an inherited name is an issue of a payload without it, and an unknown
member with such a name is not one. -/
theorem inherited_names_misjudged :
    ¬ ((validateResourcePayload (fun _ => true) (fun _ => true)
        (strictManifest (oneField "toString" (textField none))) (js "Note")
        emptyPayload.members).valid = true ↔
      ConformsTo (fun _ => true) (fun _ => true) emptyPayload
        (strictManifest (oneField "toString" (textField none))) (js "Note")) ∧
    ¬ ((validateResourcePayload (fun _ => true) (fun _ => true) (strictManifest noFields) (js "Note")
        toStringPayload.members).valid = true ↔
      ConformsTo (fun _ => true) (fun _ => true) toStringPayload (strictManifest noFields)
        (js "Note")) := by
  constructor
  · intro h
    have hconforms : ConformsTo (fun _ => true) (fun _ => true) emptyPayload
        (strictManifest (oneField "toString" (textField none))) (js "Note") := by
      refine ⟨_, List.mem_singleton_self _, rfl, ?_, ?_, ?_⟩
      · intro name field hfield hrequired
        obtain ⟨rfl, rfl⟩ := Prod.mk.inj (List.mem_singleton.mp hfield)
        cases hrequired
      · exact fun name field value _ hvalue => absurd hvalue List.not_mem_nil
      · rintro - name ⟨value, hvalue⟩
        exact absurd hvalue List.not_mem_nil
    cases h.mpr hconforms
  · intro h
    obtain ⟨definition, hmem, -, hconforms⟩ := h.mp rfl
    rw [List.mem_singleton.mp hmem] at hconforms
    obtain ⟨field, hfield⟩ :=
      hconforms.known rfl (js "toString") ⟨.bool true, List.mem_singleton_self _⟩
    exact absurd hfield List.not_mem_nil

end Example

end TrustCore.PayloadConformance
