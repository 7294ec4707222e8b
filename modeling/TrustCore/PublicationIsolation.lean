import TrustCore.SchemaRegistry

/-!
# One package identity among others

The registry keeps the packages of all identities in one map and their requests in
another, under joined texts. The calls of one identity see what the calls of the
others have left only through the keys that they share with them, so a run without
shared keys is, for the identity, the run of its own calls.
-/

namespace TrustCore.PublicationIsolation

open TrustCore.Utf TrustCore.Json TrustCore.Dynamic TrustCore.SchemaPackages TrustCore.Methods
open TrustCore.SchemaRegistry TrustCore.SchemaVersions

/-! ## Identities and runs -/

structure PackageIdentity where
  namespaceName : JsString
  name : JsString
  deriving DecidableEq

def identityOf (manifest : SchemaPackageManifest) : PackageIdentity :=
  ⟨manifest.namespaceName, manifest.name⟩

/-- A call of `publishGoverned`, and the time it is made at. -/
abbrev Call := GovernedPublicationRequest × JsString

def Call.identity (call : Call) : PackageIdentity := identityOf call.1.manifest

abbrev CallResult := Except JsString (Option PublishedSchemaPackage)

section Runs

variable (localeCompare : JsString → JsString → Int)

def perform (call : Call) (r : Registry) : CallResult × Registry :=
  (publishGoverned localeCompare call.1 call.2).exec r

/-- The calls of a run with their results. -/
def results (r : Registry) : List Call → List (Call × CallResult)
  | [] => []
  | call :: calls =>
    (call, (perform localeCompare call r).1) :: results (perform localeCompare call r).2 calls

/-- The results of the calls of one identity, in a run from the empty registry. -/
def resultsOf (identity : PackageIdentity) (calls : List Call) : List (Call × CallResult) :=
  (results localeCompare .empty calls).filter fun result => result.1.identity = identity

/-- No other identity has the key of the package of a call, or the key of its request. -/
structure Unshared (r : Registry) (call : Call) : Prop where
  package : ∀ package, r.packages.lookup (schemaKey call.1.manifest) = some package →
    identityOf package.manifest = call.identity
  request : ∀ entry package, r.publicationRequests.lookup (requestKey call.1) = some entry →
    r.packages.lookup entry.packageKey = some package →
      identityOf package.manifest = call.identity

/-- In a run, no call of the identity meets a key that another identity has taken. -/
def KeepsApart (identity : PackageIdentity) (r : Registry) : List Call → Prop
  | [] => True
  | call :: calls =>
    (call.identity = identity → Unshared r call) ∧
      KeepsApart identity (perform localeCompare call r).2 calls

end Runs

/-! ## The part of a registry -/

/-- The entry is for a package of the identity. -/
def logs (r : Registry) (identity : PackageIdentity) (entry : PublicationEntry) : Bool :=
  (r.packages.lookup entry.packageKey).any fun package => identityOf package.manifest = identity

def restrict (r : Registry) (identity : PackageIdentity) : Registry where
  packages := r.packages.filter fun entry => identityOf entry.2.manifest = identity
  publicationRequests := r.publicationRequests.filter fun entry => logs r identity entry.2

structure Filed (r : Registry) : Prop where
  packages : (r.packages.map Prod.fst).Nodup
  requests : (r.publicationRequests.map Prod.fst).Nodup
  logged : ∀ key entry, (key, entry) ∈ r.publicationRequests →
    ∃ package, r.packages.lookup entry.packageKey = some package

theorem filed_empty : Filed .empty := ⟨List.nodup_nil, List.nodup_nil, fun _ _ h => by cases h⟩

section Lookups

variable {α : Type} {members : List (JsString × α)} {key : JsString} {p : JsString × α → Bool}

/-- A lookup among some of the members, when keys are distinct. -/
theorem lookup_filter (hkeys : (members.map Prod.fst).Nodup) :
    (members.filter p).lookup key = (members.lookup key).filter fun value => p (key, value) := by
  induction members with
  | nil => rfl
  | cons member members ih =>
    obtain ⟨key', value⟩ := member
    rw [List.map_cons, List.nodup_cons] at hkeys
    by_cases hkey : key = key'
    · subst hkey
      cases hp : p (key, value) with
      | true => simp [hp, Option.filter]
      | false =>
        have hnone : members.lookup key = none := by
          cases hvalue : members.lookup key with
          | none => rfl
          | some value' => exact absurd (List.mem_map_of_mem (mem_of_lookup hvalue)) hkeys.1
        simp [hp, Option.filter, ih hkeys.2, hnone]
    · have hne : (key == key') = false := beq_false_of_ne hkey
      cases hp : p (key', value) with
      | true => simp [hp, List.lookup_cons, hne, ih hkeys.2]
      | false => simp [hp, List.lookup_cons, hne, ih hkeys.2]

theorem lookup_filter_of (hkeys : (members.map Prod.fst).Nodup)
    (h : ∀ value, members.lookup key = some value → p (key, value) = true) :
    (members.filter p).lookup key = members.lookup key := by
  rw [lookup_filter hkeys]
  cases hvalue : members.lookup key with
  | none => rfl
  | some value => simp [Option.filter, h value hvalue]

end Lookups

section Part

variable {localeCompare : JsString → JsString → Int} {r : Registry} {identity : PackageIdentity}
  {call : Call}

theorem history_only {manifest : SchemaPackageManifest} (h : identityOf manifest = identity) :
    (restrict r identity).history manifest = r.history manifest := by
  subst h
  simp only [Registry.history, restrict, List.filter_map, List.filter_filter]
  congr 1
  apply List.filter_congr
  intro entry _
  simp [identityOf, Function.comp]

theorem latest_only {manifest : SchemaPackageManifest} (h : identityOf manifest = identity) :
    (restrict r identity).latest localeCompare manifest = r.latest localeCompare manifest := by
  rw [Registry.latest, Registry.latest, history_only h]

theorem Unshared.package_only (h : Unshared r call) (hr : Filed r)
    (hidentity : call.identity = identity) :
    (restrict r identity).packages.lookup (schemaKey call.1.manifest) =
      r.packages.lookup (schemaKey call.1.manifest) := by
  apply lookup_filter_of hr.packages
  intro package hpackage
  rw [decide_eq_true_eq, h.package package hpackage, hidentity]

theorem Unshared.request_only (h : Unshared r call) (hr : Filed r)
    (hidentity : call.identity = identity) :
    (restrict r identity).publicationRequests.lookup (requestKey call.1) =
      r.publicationRequests.lookup (requestKey call.1) := by
  apply lookup_filter_of hr.requests
  intro entry hentry
  obtain ⟨package, hpackage⟩ := hr.logged _ entry (mem_of_lookup hentry)
  simp [logs, hpackage, h.request entry package hentry hpackage, hidentity]

theorem Unshared.replay_only (h : Unshared r call) (hr : Filed r)
    (hidentity : call.identity = identity) {entry : PublicationEntry}
    (hentry : r.publicationRequests.lookup (requestKey call.1) = some entry) :
    (restrict r identity).get entry.packageKey = r.get entry.packageKey := by
  apply lookup_filter_of hr.packages
  intro package hpackage
  rw [decide_eq_true_eq, h.request entry package hentry hpackage, hidentity]

end Part

/-! ## A run and its part -/

section Isolation

variable {localeCompare : JsString → JsString → Int} {r : Registry} {identity : PackageIdentity}
  {call : Call}

theorem Unshared.alike (h : Unshared r call) (hr : Filed r) (hidentity : call.identity = identity) :
    Alike localeCompare (restrict r identity) r call.1 where
  package := h.package_only hr hidentity
  logged := h.request_only hr hidentity
  replay _ hentry := h.replay_only hr hidentity hentry
  latest := latest_only hidentity

theorem not_mem_keys {α : Type} {key : JsString} {members : List (JsString × α)}
    (h : members.lookup key = none) : key ∉ members.map Prod.fst := by
  intro hkey
  obtain ⟨member, hmember, rfl⟩ := List.mem_map.mp hkey
  simpa using List.lookup_eq_none_iff.mp h member hmember

theorem registry_eq {q r : Registry} (hpackages : q.packages = r.packages)
    (hrequests : q.publicationRequests = r.publicationRequests) : q = r := by
  cases q
  cases r
  simp_all

section Add

variable {publishedAt : JsString} {compatibility : CompatibilityReport}

theorem filed_add (hr : Filed r) (hpackage : r.packages.lookup (schemaKey call.1.manifest) = none)
    (hrequest : r.publicationRequests.lookup (requestKey call.1) = none) :
    Filed (r.add call.1 publishedAt compatibility) where
  packages := by
    rw [Registry.add, List.map_append, List.nodup_append]
    exact ⟨hr.packages, List.nodup_singleton _, fun key hkey key' hkey' =>
      List.mem_singleton.mp hkey' ▸ ne_of_mem_of_not_mem hkey (not_mem_keys hpackage)⟩
  requests := by
    rw [Registry.add, List.map_append, List.nodup_append]
    exact ⟨hr.requests, List.nodup_singleton _, fun key hkey key' hkey' =>
      List.mem_singleton.mp hkey' ▸ ne_of_mem_of_not_mem hkey (not_mem_keys hrequest)⟩
  logged := by
    intro key entry hmem
    rcases List.mem_append.mp hmem with hold | hnew
    · obtain ⟨package, hfound⟩ := hr.logged key entry hold
      exact ⟨package, lookup_concat hfound⟩
    · obtain ⟨rfl, rfl⟩ := Prod.mk.inj (List.mem_singleton.mp hnew)
      exact ⟨_, lookup_concat_self hpackage⟩

/-- What is added for one identity is in its part, and in no other one. -/
theorem restrict_add (hr : Filed r)
    (hpackage : r.packages.lookup (schemaKey call.1.manifest) = none) :
    restrict (r.add call.1 publishedAt compatibility) identity =
      if call.identity = identity then (restrict r identity).add call.1 publishedAt compatibility
      else restrict r identity := by
  have hnew : logs (r.add call.1 publishedAt compatibility) identity
      ⟨schemaDigest call.1.value, schemaKey call.1.manifest⟩ = decide (call.identity = identity) := by
    rw [logs, Registry.add, lookup_concat_self hpackage]
    rfl
  have hold : ∀ entry ∈ r.publicationRequests,
      logs (r.add call.1 publishedAt compatibility) identity entry.2 = logs r identity entry.2 := by
    rintro ⟨key, entry⟩ hmem
    obtain ⟨package, hfound⟩ := hr.logged key entry hmem
    rw [logs, Registry.add, lookup_concat hfound, logs, hfound]
  have hrequests : (restrict (r.add call.1 publishedAt compatibility) identity).publicationRequests =
      (restrict r identity).publicationRequests ++
        if call.identity = identity then
          [(requestKey call.1, ⟨schemaDigest call.1.value, schemaKey call.1.manifest⟩)]
        else [] := by
    change List.filter _ (r.publicationRequests ++ [(_, _)]) = _
    rw [List.filter_append, List.filter_congr hold, List.filter_singleton, hnew]
    by_cases h : call.identity = identity
    · simp [h, restrict]
    · simp [h, restrict]
  have hpackages : (restrict (r.add call.1 publishedAt compatibility) identity).packages =
      (restrict r identity).packages ++
        if call.identity = identity then
          [(schemaKey call.1.manifest, call.1.package publishedAt compatibility)]
        else [] := by
    change List.filter _ (r.packages ++ [(_, _)]) = _
    rw [List.filter_append, List.filter_singleton]
    by_cases h : call.identity = identity
    · have h' : identityOf (call.1.package publishedAt compatibility).manifest = identity := h
      simp [h, h', restrict]
    · have h' : ¬ identityOf (call.1.package publishedAt compatibility).manifest = identity := h
      simp [h, h', restrict]
  split
  · next h =>
    rw [if_pos h] at hrequests hpackages
    exact registry_eq hpackages hrequests
  · next h =>
    rw [if_neg h, List.append_nil] at hrequests hpackages
    exact registry_eq hpackages hrequests

end Add

theorem filed_perform (hr : Filed r) : Filed (perform localeCompare call r).2 := by
  rcases publishGoverned_cases localeCompare call.1 call.2 r with
    ⟨e, hexec⟩ | ⟨-, replay, -, -, hexec⟩ | ⟨compatibility, hpublishes, hexec⟩
  · rw [perform, hexec]
    exact hr
  · rw [perform, hexec]
    exact hr
  · rw [perform, hexec]
    exact filed_add hr hpublishes.newPackage hpublishes.newRequest

/-- A call of another identity leaves the part as it is. -/
theorem restrict_perform_other (hr : Filed r) (hidentity : call.identity ≠ identity) :
    restrict (perform localeCompare call r).2 identity = restrict r identity := by
  rcases publishGoverned_cases localeCompare call.1 call.2 r with
    ⟨e, hexec⟩ | ⟨-, replay, -, -, hexec⟩ | ⟨compatibility, hpublishes, hexec⟩
  · rw [perform, hexec]
  · rw [perform, hexec]
  · rw [perform, hexec, restrict_add hr hpublishes.newPackage, if_neg hidentity]

/-- A call of the identity does on its part what it does on the whole. -/
theorem perform_restrict (hr : Filed r) (hidentity : call.identity = identity)
    (h : Unshared r call) :
    perform localeCompare call (restrict r identity) =
      ((perform localeCompare call r).1, restrict (perform localeCompare call r).2 identity) := by
  rcases publishGoverned_alike call.2 (@Unshared.alike localeCompare r identity call h hr hidentity)
    with ⟨e, hpart, hwhole⟩ | ⟨-, replay, -, -, hpart, hwhole⟩ |
      ⟨compatibility, hpublishes, hpart, hwhole⟩
  · rw [perform, perform, hpart, hwhole]
  · rw [perform, perform, hpart, hwhole]
  · rw [perform, perform, hpart, hwhole, restrict_add hr hpublishes.newPackage, if_pos hidentity]

/-- The results of one identity are those of the run of its own calls on its part. -/
theorem results_filter {calls : List Call} (hr : Filed r)
    (h : KeepsApart localeCompare identity r calls) :
    (results localeCompare r calls).filter (fun result => result.1.identity = identity) =
      results localeCompare (restrict r identity)
        (calls.filter fun call => call.identity = identity) := by
  induction calls generalizing r with
  | nil => rfl
  | cons call calls ih =>
    obtain ⟨hunshared, hrest⟩ := h
    have hr' : Filed (perform localeCompare call r).2 := filed_perform hr
    by_cases hidentity : call.identity = identity
    · have hpart := @perform_restrict localeCompare r identity call hr hidentity
        (hunshared hidentity)
      rw [results, List.filter_cons_of_pos (by simpa using hidentity),
        List.filter_cons_of_pos (by simpa using hidentity), results, hpart, ih hr' hrest]
    · rw [results, List.filter_cons_of_neg (by simpa using hidentity),
        List.filter_cons_of_neg (by simpa using hidentity), ih hr' hrest,
        restrict_perform_other hr hidentity]

/-- Two runs with the same calls of an identity give it the same results, whatever else they do,
as long as no other identity takes one of its keys. -/
theorem results_isolated (localeCompare : JsString → JsString → Int) (identity : PackageIdentity)
    (calls calls' : List Call)
    (hcalls : calls.filter (fun call => call.identity = identity) =
      calls'.filter fun call => call.identity = identity)
    (h : KeepsApart localeCompare identity .empty calls)
    (h' : KeepsApart localeCompare identity .empty calls') :
    resultsOf localeCompare identity calls = resultsOf localeCompare identity calls' := by
  rw [resultsOf, resultsOf, results_filter filed_empty h, results_filter filed_empty h', hcalls]

end Isolation

section Example

/-- The request for the first version of a package without types. -/
def firstRequest (namespaceName name idempotencyKey : String) : GovernedPublicationRequest where
  manifest :=
    { notesManifest with
      namespaceName := js namespaceName
      name := js name }
  application :=
    { namespaceName := js namespaceName ++ js "/" ++ js name
      applicationVersion := js "1.0.0"
      schemaPackage := ⟨js namespaceName ++ js "/" ++ js name ++ js "/1.0.0", js "1.0.0", [], [],
        .preserve⟩ }
  approval := ⟨js "admin:release", js "approval-1"⟩
  idempotencyKey := js idempotencyKey
  expectedCompatibility := .initial

def firstCall (namespaceName name idempotencyKey : String) : Call :=
  (firstRequest namespaceName name idempotencyKey, js "2026-08-04")

theorem results_isolated_notes :
    resultsOf compareNumeric ⟨js "app", js "notes"⟩
        [firstCall "app" "tasks" "publish-1", firstCall "app" "notes" "publish-1"] =
      resultsOf compareNumeric ⟨js "app", js "notes"⟩ [firstCall "app" "notes" "publish-1"] := by
  apply results_isolated
  · rfl
  · refine ⟨fun h => absurd h (by decide), fun _ => ⟨?_, ?_⟩, trivial⟩
    · intro package h
      cases h
    · intro entry package h
      cases h
  · refine ⟨fun _ => ⟨?_, ?_⟩, trivial⟩
    · intro package h
      cases h
    · intro entry package h
      cases h

/-- A slash in a name: two identities with one package key, and one is refused for the other. -/
theorem joined_keys_collide :
    [firstCall "a/b" "c" "second"].filter
        (fun call => call.identity = (⟨js "a/b", js "c"⟩ : PackageIdentity)) =
      [firstCall "a" "b/c" "first", firstCall "a/b" "c" "second"].filter
        (fun call => call.identity = (⟨js "a/b", js "c"⟩ : PackageIdentity)) ∧
    resultsOf compareNumeric ⟨js "a/b", js "c"⟩ [firstCall "a/b" "c" "second"] ≠
      resultsOf compareNumeric ⟨js "a/b", js "c"⟩
        [firstCall "a" "b/c" "first", firstCall "a/b" "c" "second"] := by
  refine ⟨rfl, ?_⟩
  intro h
  have halone : (resultsOf compareNumeric ⟨js "a/b", js "c"⟩
      [firstCall "a/b" "c" "second"]).map (fun result => result.2.isOk) = [true] := rfl
  have hafter : (resultsOf compareNumeric ⟨js "a/b", js "c"⟩
      [firstCall "a" "b/c" "first", firstCall "a/b" "c" "second"]).map
        (fun result => result.2.isOk) = [false] := rfl
  rw [h, hafter] at halone
  cases halone

end Example

end TrustCore.PublicationIsolation
