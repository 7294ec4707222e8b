import TrustCore.Dynamic

/-!
# Schema packages

A manifest declares the resource types of a package, their fields and the relationships between
them. `classifyCompatibility` compares two manifests of one package, name by name; the version of
the next one has to fit what it finds.
-/

namespace TrustCore.SchemaPackages

open TrustCore.Utf TrustCore.Numbers TrustCore.Json TrustCore.Dynamic TrustCore.Sha256

/-! ## Manifests -/

inductive FieldKind where
  | string
  | number
  | boolean
  | timestamp
  | object
  | array
  deriving DecidableEq

def FieldKind.text : FieldKind → JsString
  | .string => js "string"
  | .number => js "number"
  | .boolean => js "boolean"
  | .timestamp => js "timestamp"
  | .object => js "object"
  | .array => js "array"

inductive Format where
  | uri
  | sha256
  | mediaType
  deriving DecidableEq

def Format.text : Format → JsString
  | .uri => js "uri"
  | .sha256 => js "sha256"
  | .mediaType => js "media-type"

structure FieldDefinition where
  kind : FieldKind
  required : Option Bool
  format : Option Format
  description : Option JsString
  deriving DecidableEq

def FieldDefinition.isRequired (field : FieldDefinition) : Bool := field.required == some true

/-- The own fields of a record, in the order in which they are listed. -/
structure Fields where
  entries : List (JsString × FieldDefinition)
  nodup : (entries.map Prod.fst).Nodup

inductive UnknownFields where
  | preserve
  | reject
  deriving DecidableEq

def UnknownFields.text : UnknownFields → JsString
  | .preserve => js "preserve"
  | .reject => js "reject"

structure ResourceTypeDefinition where
  name : JsString
  description : JsString
  fields : Fields
  additionalFields : UnknownFields

inductive Cardinality where
  | oneToOne
  | oneToMany
  | manyToMany
  deriving DecidableEq

def Cardinality.text : Cardinality → JsString
  | .oneToOne => js "one-to-one"
  | .oneToMany => js "one-to-many"
  | .manyToMany => js "many-to-many"

structure RelationshipDefinition where
  type : JsString
  sourceTypes : List JsString
  targetTypes : List JsString
  cardinality : Cardinality

inductive PackageClass where
  | system
  | application

def PackageClass.text : PackageClass → JsString
  | .system => js "system"
  | .application => js "application"

structure SchemaPackageManifest where
  namespaceName : JsString
  name : JsString
  version : JsString
  title : JsString
  description : JsString
  classification : PackageClass
  resourceTypes : List ResourceTypeDefinition
  relationships : List RelationshipDefinition
  compatibleArchiveFormat : JsString

def schemaKey (manifest : SchemaPackageManifest) : JsString :=
  manifest.namespaceName ++ js "/" ++ manifest.name ++ js "/" ++ manifest.version

/-! ## Digests -/

/-- `canonicalize` of the schema registry: keys by code unit, `undefined` as template text. -/
def schemaEncoder : Encoder := ⟨unitsLe, some [], some (js "undefined")⟩

def canonicalize (value : JsValue) : JsString := (encode schemaEncoder value).getD []

def schemaDigest (value : JsValue) : JsString := sha256 (textEncode (canonicalize value))

def optionalMember (key : String) (value : Option JsValue) : List (JsString × JsValue) :=
  (value.map fun value => (js key, value)).toList

def strings (values : List JsString) : JsValue := .array (values.map .string)

def FieldDefinition.value (field : FieldDefinition) : JsValue :=
  .object ((js "kind", .string field.kind.text) ::
    (optionalMember "required" (field.required.map .bool) ++
      optionalMember "format" (field.format.map fun format => .string format.text) ++
      optionalMember "description" (field.description.map .string)))

def Fields.value (fields : Fields) : JsValue :=
  .object (fields.entries.map fun entry => (entry.1, entry.2.value))

def ResourceTypeDefinition.value (definition : ResourceTypeDefinition) : JsValue :=
  .object [(js "name", .string definition.name), (js "description", .string definition.description),
    (js "fields", definition.fields.value),
    (js "additionalFields", .string definition.additionalFields.text)]

def RelationshipDefinition.value (relation : RelationshipDefinition) : JsValue :=
  .object [(js "type", .string relation.type), (js "sourceTypes", strings relation.sourceTypes),
    (js "targetTypes", strings relation.targetTypes),
    (js "cardinality", .string relation.cardinality.text)]

def SchemaPackageManifest.value (manifest : SchemaPackageManifest) : JsValue :=
  .object [(js "namespace", .string manifest.namespaceName), (js "name", .string manifest.name),
    (js "version", .string manifest.version), (js "title", .string manifest.title),
    (js "description", .string manifest.description),
    (js "classification", .string manifest.classification.text),
    (js "resourceTypes", .array (manifest.resourceTypes.map (·.value))),
    (js "relationships", .array (manifest.relationships.map (·.value))),
    (js "compatibleArchiveFormat", .string manifest.compatibleArchiveFormat)]

/-! ## Compatibility -/

inductive CompatibilityClassification where
  | initial
  | backwardCompatible
  | breaking
  deriving DecidableEq

def CompatibilityClassification.text : CompatibilityClassification → JsString
  | .initial => js "initial"
  | .backwardCompatible => js "backward-compatible"
  | .breaking => js "breaking"

inductive ChangeKind where
  | added
  | removed
  | changed
  deriving DecidableEq

structure CompatibilityChange where
  path : JsString
  kind : ChangeKind
  breaking : Bool
  message : JsString
  deriving DecidableEq

structure CompatibilityReport where
  classification : CompatibilityClassification
  previousKey : Option JsString
  changes : List CompatibilityChange
  deriving DecidableEq

def added (path : JsString) (message : String) (breaking : Bool) : CompatibilityChange :=
  ⟨path, .added, breaking, js message⟩

def removed (path : JsString) (message : String) : CompatibilityChange :=
  ⟨path, .removed, true, js message⟩

def changed (path : JsString) (breaking : Bool) (message : String) : CompatibilityChange :=
  ⟨path, .changed, breaking, js message⟩

/-- The names that every object inherits. -/
def objectPrototype : List JsString :=
  [js "constructor", js "__defineGetter__", js "__defineSetter__", js "hasOwnProperty",
    js "__lookupGetter__", js "__lookupSetter__", js "isPrototypeOf", js "propertyIsEnumerable",
    js "toString", js "valueOf", js "__proto__", js "toLocaleString"]

/-- What `fields[name]` gives; an inherited value has none of the properties of a definition. -/
inductive FieldLookup where
  | own (field : FieldDefinition)
  | inherited
  | absent

def Fields.get (fields : Fields) (name : JsString) : FieldLookup :=
  match fields.entries.lookup name with
  | some field => .own field
  | none => if name ∈ objectPrototype then .inherited else .absent

def fieldPath (resourceName name : JsString) : JsString :=
  js "resourceTypes." ++ resourceName ++ js ".fields." ++ name

/-- What became of a field of the previous manifest. -/
def compareField (path : JsString) (before : FieldDefinition) :
    FieldLookup → List CompatibilityChange
  | .absent => [removed path "Field was removed."]
  | .inherited => [changed path true "Field type or format changed."]
  | .own after =>
    (if before.kind ≠ after.kind ∨ before.format ≠ after.format then
      [changed path true "Field type or format changed."]
    else []) ++
    if !before.isRequired && after.isRequired then
      [changed (path ++ js ".required") true "Field became required."]
    else []

/-- A field of the next manifest; one that `previous[name]` finds is not new. -/
def compareNewField (path : JsString) (field : FieldDefinition) :
    FieldLookup → List CompatibilityChange
  | .absent =>
    if field.isRequired then [added path "Required field was added." true]
    else [added path "Optional field was added." false]
  | _ => []

def compareFields (resourceName : JsString) (previous next : Fields) : List CompatibilityChange :=
  (previous.entries.flatMap fun entry =>
    compareField (fieldPath resourceName entry.1) entry.2 (next.get entry.1)) ++
  next.entries.flatMap fun entry =>
    compareNewField (fieldPath resourceName entry.1) entry.2 (previous.get entry.1)

/-- `new Map(values.map((value) => [value.name, value]))`. -/
def byName (resourceTypes : List ResourceTypeDefinition) :
    List (JsString × ResourceTypeDefinition) :=
  resourceTypes.foldl (fun types definition => setMember definition.name definition types) []

def compareResourceType (name : JsString) (before : ResourceTypeDefinition) :
    Option ResourceTypeDefinition → List CompatibilityChange
  | none => [removed (js "resourceTypes." ++ name) "Resource type was removed."]
  | some after =>
    (if before.additionalFields = .preserve ∧ after.additionalFields = .reject then
      [changed (js "resourceTypes." ++ name ++ js ".additionalFields") true
        "Unknown fields are no longer preserved."]
    else []) ++
    compareFields name before.fields after.fields

def compareResourceTypes (previous next : List ResourceTypeDefinition) :
    List CompatibilityChange :=
  let previousByName := byName previous
  let nextByName := byName next
  (previousByName.flatMap fun entry =>
    compareResourceType entry.1 entry.2 (nextByName.lookup entry.1)) ++
  nextByName.flatMap fun entry =>
    if (previousByName.lookup entry.1).isSome then []
    else [added (js "resourceTypes." ++ entry.1) "Resource type was added." false]

def sortUnits (values : List JsString) : List JsString :=
  values.insertionSort fun a b => unitsLe a b = true

def relationshipKey (relation : RelationshipDefinition) : JsString :=
  relation.type ++ js ":" ++ joinComma (sortUnits relation.sourceTypes) ++ js ":" ++
    joinComma (sortUnits relation.targetTypes) ++ js ":" ++ relation.cardinality.text

def compareRelationships (previous next : List RelationshipDefinition) :
    List CompatibilityChange :=
  (previous.flatMap fun relation =>
    if relationshipKey relation ∈ next.map relationshipKey then []
    else [removed (js "relationships." ++ relation.type)
      "Relationship constraint was removed or changed."]) ++
  next.flatMap fun relation =>
    if relationshipKey relation ∈ previous.map relationshipKey then []
    else [added (js "relationships." ++ relation.type) "Relationship constraint was added." false]

def manifestChanges (previous next : SchemaPackageManifest) : List CompatibilityChange :=
  compareResourceTypes previous.resourceTypes next.resourceTypes ++
  compareRelationships previous.relationships next.relationships ++
  if previous.compatibleArchiveFormat ≠ next.compatibleArchiveFormat then
    [changed (js "compatibleArchiveFormat") true "Compatible archive format changed."]
  else []

def classifyCompatibility (previous : Option SchemaPackageManifest) (next : SchemaPackageManifest) :
    Except JsString CompatibilityReport :=
  match previous with
  | none => .ok ⟨.initial, none, []⟩
  | some previous =>
    if previous.namespaceName ≠ next.namespaceName ∨ previous.name ≠ next.name then
      .error (js "Compatibility requires the same schema package identity.")
    else
      let changes := manifestChanges previous next
      .ok
        { classification := if changes.any (·.breaking) then .breaking else .backwardCompatible
          previousKey := some (schemaKey previous)
          changes := changes }

/-! ## Versions -/

/-- The digit runs that `(\d+)\.(\d+)\.(\d+)` takes from the start of a text, and what follows. -/
structure VersionRuns where
  major : List Nat
  minor : List Nat
  patch : List Nat
  rest : JsString

def takeRun (s : JsString) : Option (List Nat × JsString) :=
  let run := takeDigits s
  if run.1 = [] then none else some run

def takeDot : JsString → Option JsString
  | 46 :: rest => some rest
  | _ => none

def takeVersion (version : JsString) : Option VersionRuns := do
  let (major, rest) ← takeRun version
  let (minor, rest) ← takeRun (← takeDot rest)
  let (patch, rest) ← takeRun (← takeDot rest)
  return ⟨major, minor, patch, rest⟩

/-- `0|[1-9]\d*`. -/
def isPlainRun (ds : List Nat) : Bool := ds == [0] || ds.head? != some 0

def isTagUnit (u : UInt16) : Bool :=
  isDigit u || decide (65 ≤ u.toNat ∧ u.toNat ≤ 90) || decide (97 ≤ u.toNat ∧ u.toNat ≤ 122) ||
    u == 46 || u == 45

/-- `(?:-[0-9A-Za-z.-]+)?$`. -/
def isTag : JsString → Bool
  | [] => true
  | u :: tag => u == 45 && !tag.isEmpty && tag.all isTagUnit

/-- The test of `SEMVER`. -/
def isSemver (version : JsString) : Bool :=
  (takeVersion version).any fun runs =>
    isPlainRun runs.major && isPlainRun runs.minor && isPlainRun runs.patch && isTag runs.rest

/-- A double that is not negative; `none` is infinity. -/
abbrev Double := Option ℚ

/-- `Number(text)` of a digit run. -/
def numberOfRun (ds : List Nat) : Double :=
  (roundBinary (digitsValue ds, 1)).map fun x => x.1 * (2 : ℚ) ^ x.2

structure ParsedVersion where
  major : Double
  minor : Double
  patch : Double

def parseVersion (value : JsString) : Except JsString ParsedVersion :=
  match takeVersion value with
  | none => .error (js "Invalid semantic version: " ++ value)
  | some runs => .ok ⟨numberOfRun runs.major, numberOfRun runs.minor, numberOfRun runs.patch⟩

/-- The sign of `left - right`; `none` is `NaN`. -/
def minus : Double → Double → Option Int
  | none, none => none
  | none, some _ => some 1
  | some _, none => some (-1)
  | some left, some right => some (if left < right then -1 else if left = right then 0 else 1)

/-- `first || second` of two numbers. -/
def orNumber (first second : Option Int) : Option Int :=
  match first with
  | none => second
  | some 0 => second
  | first => first

def compareVersion (left right : ParsedVersion) : Option Int :=
  orNumber (orNumber (minus left.major right.major) (minus left.minor right.minor))
    (minus left.patch right.patch)

def doubleLe : Double → Double → Bool
  | _, none => true
  | left, some right => left.any (· ≤ right)

def assertVersionMatchesCompatibility (previous : Option SchemaPackageManifest)
    (next : SchemaPackageManifest) (report : CompatibilityReport) : Except JsString Unit :=
  match previous with
  | none => .ok ()
  | some previous => do
    let previousVersion ← parseVersion previous.version
    let nextVersion ← parseVersion next.version
    if (compareVersion nextVersion previousVersion).any (· ≤ 0) then
      throw (js "Published schema versions must increase.")
    if report.classification = .breaking ∧ doubleLe nextVersion.major previousVersion.major then
      throw (js "Breaking schema changes require a new major version.")
    if report.classification = .backwardCompatible ∧ nextVersion.major ≠ previousVersion.major then
      throw (js "Backward-compatible schema changes must remain in the current major version.")

end TrustCore.SchemaPackages
