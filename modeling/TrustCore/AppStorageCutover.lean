import TrustCore.AppStorageRuns

/-!
# Cutting routes over

`cutoverMigrate` checks the digests of the listed objects one by one and moves each route
as it goes. A refusal in the middle leaves the routes before it moved, and a cutover that
succeeds writes the generation that the target had before it.
-/

namespace TrustCore.AppStorage

open TrustCore.Utf TrustCore.KeyedMaps TrustCore.Runs

/-- The route to the target as the loop writes it. -/
def BlobStickyRoute.moved (route : BlobStickyRoute) (target : StoredStorageBinding) :
    BlobStickyRoute :=
  { route with storageBindingId := target.id, storageBindingGeneration := target.generation }

/-- What a cutover is for: a refusal changes no route and no binding, and a success moves the
routes of the listed objects from the source, in the workspace of both bindings, to the
generation that the target has from then on, and no other route. -/
def CutoverSettles (r : Registry) (d : Draw) (input : CutoverInput) : Prop :=
  let out := r.cutoverMigrate d input
  match out.1 with
  | .error _ => (∀ id, out.2.readBlobRoute id = r.readBlobRoute id) ∧
      ∀ id, out.2.bindings.get id = r.bindings.get id
  | .ok _ =>
    (∀ id, id ∉ input.objectDigests.map (·.objectId) →
      out.2.readBlobRoute id = r.readBlobRoute id) ∧
    (∀ item ∈ input.objectDigests, ∃ route source target target',
      r.readBlobRoute item.objectId = some route ∧
      r.bindings.get input.sourceBindingId = some source ∧
      r.bindings.get input.targetBindingId = some target ∧
      out.2.bindings.get input.targetBindingId = some target' ∧
      route.storageBindingId = input.sourceBindingId ∧
      route.workspaceId = source.workspaceId ∧ route.workspaceId = target.workspaceId ∧
      out.2.readBlobRoute item.objectId = some (route.moved target')) ∧
    ∀ id route, out.2.readBlobRoute id = some route →
      route.storageBindingId = input.sourceBindingId →
        id ∉ input.objectDigests.map (·.objectId)

/-- The route that the item is checked against, if the check passes. -/
def checkedRoute (r : Registry) (item : ObjectDigest) : Option BlobStickyRoute :=
  (r.blobs.get item.objectId).filter (·.sha256 == item.sha256)

/-- The items before the first refused one have nothing to move. -/
def RefusedSettled (r : Registry) (target : StoredStorageBinding) (items : List ObjectDigest) :
    Prop :=
  ∃ before item after, items = before ++ item :: after ∧ checkedRoute r item = none ∧
    ∀ x ∈ before, ∃ route, checkedRoute r x = some route ∧ route.moved target = route

/-- The cutovers that do as they should, by their input and the registry they start from. -/
def CutoverCondition (r : Registry) (input : CutoverInput) : Prop :=
  ∀ source target, r.bindings.get input.sourceBindingId = some source →
    r.bindings.get input.targetBindingId = some target →
    source.status = .migrating → target.status = .connected →
      input.objectDigests = [] ∧ (r.profiles.get target.profileId).isSome = true ∨
        RefusedSettled r target input.objectDigests

section Loop

variable {r : Registry} {target : StoredStorageBinding} {item : ObjectDigest}
  {items : List ObjectDigest}

/-- The registry with one route moved. -/
def Registry.moveRoute (r : Registry) (target : StoredStorageBinding) (route : BlobStickyRoute) :
    Registry := { r with blobs := r.blobs.set (route.moved target) }

theorem moveRoutes_cons : r.moveRoutes target (item :: items) =
    match checkedRoute r item with
    | none => (.error Registry.digestMismatch, r)
    | some route => (r.moveRoute target route).moveRoutes target items := by
  rw [Registry.moveRoutes, checkedRoute]
  cases hroute : r.blobs.get item.objectId with
  | none => rfl
  | some route =>
    by_cases hdigest : route.sha256 = item.sha256
    · rw [Option.filter_some, if_pos (beq_iff_eq.mpr hdigest)]
      exact if_neg (not_not.mpr hdigest)
    · simp [hdigest, Option.filter_some]

theorem checkedRoute_get {route : BlobStickyRoute} (h : checkedRoute r item = some route) :
    r.blobs.get item.objectId = some route := (Option.filter_eq_some_iff.mp h).1

theorem get_moveRoute (target : StoredStorageBinding) {route : BlobStickyRoute} (h : checkedRoute r item = some route)
    (id : JsString) : (r.moveRoute target route).blobs.get id =
      if item.objectId = id then some (route.moved target) else r.blobs.get id := by
  have hkey : route.objectId = item.objectId := KeyedMap.key_of_get (checkedRoute_get h)
  rw [← hkey]
  exact KeyedMap.get_set _ _ _

/-- The check of an item sees the same digest before and after routes have moved. -/
theorem checkedRoute_moveRoute {x : ObjectDigest} {route : BlobStickyRoute}
    (h : checkedRoute r item = some route) : checkedRoute (r.moveRoute target route) x =
      (checkedRoute r x).map fun old => if item.objectId = x.objectId then old.moved target else old := by
  rw [checkedRoute, checkedRoute, get_moveRoute target h]
  by_cases hid : item.objectId = x.objectId
  · have hget := checkedRoute_get h
    rw [hid] at hget
    rw [if_pos hid, hget]
    by_cases hdigest : route.sha256 = x.sha256
    · simp [hid, hdigest, BlobStickyRoute.moved, Option.filter_some]
    · simp [hdigest, BlobStickyRoute.moved, Option.filter_some]
  · rw [if_neg hid]
    cases (r.blobs.get x.objectId).filter (·.sha256 == x.sha256) with
    | none => rfl
    | some old => simp [hid]

@[simp] theorem moved_moved (route : BlobStickyRoute) :
    (route.moved target).moved target = route.moved target := rfl

/-- A route that was checked and moved. -/
def Moves (r r' : Registry) (target : StoredStorageBinding) (item : ObjectDigest) : Prop :=
  ∃ route, checkedRoute r item = some route ∧
    r'.blobs.get item.objectId = some (route.moved target)

/-- The loop leaves a route as it is or moves it. -/
theorem moveRoutes_get (r : Registry) (target : StoredStorageBinding) (items : List ObjectDigest)
    (id : JsString) : (r.moveRoutes target items).2.blobs.get id = r.blobs.get id ∨
      ∃ old, r.blobs.get id = some old ∧
        (r.moveRoutes target items).2.blobs.get id = some (old.moved target) := by
  induction items generalizing r with
  | nil => exact .inl rfl
  | cons item items ih =>
    rw [moveRoutes_cons]
    cases hroute : checkedRoute r item with
    | none => exact .inl rfl
    | some route =>
      have hget := get_moveRoute target hroute id
      obtain hsame | ⟨old, hold, hmoved⟩ := ih (r.moveRoute target route)
      · rw [hsame, hget]
        by_cases hid : item.objectId = id
        · rw [if_pos hid]
          exact .inr ⟨route, hid ▸ checkedRoute_get hroute, rfl⟩
        · rw [if_neg hid]
          exact .inl rfl
      · rw [hmoved]
        rw [hget] at hold
        by_cases hid : item.objectId = id
        · rw [if_pos hid, Option.some_inj] at hold
          exact .inr ⟨route, hid ▸ checkedRoute_get hroute, by rw [← hold, moved_moved]⟩
        · rw [if_neg hid] at hold
          exact .inr ⟨old, hold, rfl⟩

theorem Moves.of_moveRoute {r' : Registry} {x : ObjectDigest} {route : BlobStickyRoute}
    (hroute : checkedRoute r item = some route) (h : Moves (r.moveRoute target route) r' target x) :
    Moves r r' target x := by
  obtain ⟨moved, hchecked, hget⟩ := h
  rw [checkedRoute_moveRoute hroute] at hchecked
  obtain ⟨old, hold, rfl⟩ := Option.map_eq_some_iff.mp hchecked
  refine ⟨old, hold, ?_⟩
  rw [hget]
  split <;> rfl

/-- The loop moves all items, or those before the first that it refuses. -/
theorem moveRoutes_cases (r : Registry) (target : StoredStorageBinding)
    (items : List ObjectDigest) :
    (r.moveRoutes target items).1 = .ok () ∧
        (∀ x ∈ items, Moves r (r.moveRoutes target items).2 target x) ∨
      (r.moveRoutes target items).1 = .error Registry.digestMismatch ∧
        ∃ before item after, items = before ++ item :: after ∧ checkedRoute r item = none ∧
          ∀ x ∈ before, Moves r (r.moveRoutes target items).2 target x := by
  induction items generalizing r with
  | nil => exact .inl ⟨rfl, nofun⟩
  | cons item items ih =>
    rw [moveRoutes_cons]
    cases hroute : checkedRoute r item with
    | none => exact .inr ⟨rfl, [], item, items, rfl, hroute, nofun⟩
    | some route =>
      have hitem : Moves r ((r.moveRoute target route).moveRoutes target items).2 target item := by
        refine ⟨route, hroute, ?_⟩
        have hget := get_moveRoute target hroute item.objectId
        rw [if_pos rfl] at hget
        obtain hsame | ⟨old, hold, hmoved⟩ :=
          moveRoutes_get (r.moveRoute target route) target items item.objectId
        · rw [hsame, hget]
        · rw [hget, Option.some_inj] at hold
          rw [hmoved, ← hold, moved_moved]
      obtain ⟨hok, hall⟩ | ⟨herror, before, refused, after, rfl, hrefused, hall⟩ :=
        ih (r.moveRoute target route)
      · refine .inl ⟨hok, ?_⟩
        intro x hx
        obtain rfl | hx := List.mem_cons.mp hx
        · exact hitem
        · exact (hall x hx).of_moveRoute hroute
      · refine .inr ⟨herror, item :: before, refused, after, rfl, ?_, ?_⟩
        · rw [checkedRoute_moveRoute hroute, Option.map_eq_none_iff] at hrefused
          exact hrefused
        · intro x hx
          obtain rfl | hx := List.mem_cons.mp hx
          · exact hitem
          · exact (hall x hx).of_moveRoute hroute

/-- Items that are settled already are checked and moved nowhere. -/
theorem moveRoutes_settled {before : List ObjectDigest}
    (h : ∀ x ∈ before, ∃ route, checkedRoute r x = some route ∧ route.moved target = route)
    (rest : List ObjectDigest) :
    r.moveRoutes target (before ++ rest) = r.moveRoutes target rest := by
  induction before with
  | nil => rfl
  | cons x before ih =>
    obtain ⟨route, hroute, hsettled⟩ := h x List.mem_cons_self
    have hsame : r.moveRoute target route = r := by
      have hget := checkedRoute_get hroute
      rw [← KeyedMap.key_of_get hget] at hget
      rw [Registry.moveRoute, hsettled, KeyedMap.set_of_get hget]
    rw [List.cons_append, moveRoutes_cons, hroute]
    dsimp only
    rw [hsame, ih fun y hy => h y (List.mem_cons_of_mem _ hy)]

end Loop

/-- A cutover that has got past the statuses of its bindings. -/
theorem cutoverMigrate_started {r : Registry} {d : Draw} {input : CutoverInput}
    {source target : StoredStorageBinding} (hs : r.bindings.get input.sourceBindingId = some source)
    (ht : r.bindings.get input.targetBindingId = some target) (hmigrating : source.status = .migrating)
    (hconnected : target.status = .connected) :
    r.cutoverMigrate d input =
      match r.moveRoutes target input.objectDigests with
      | (.error e, r) => (.error e, r)
      | (.ok (), r) => r.finishCutover d input.actorId source target := by
  rw [Registry.cutoverMigrate, hs, ht]
  exact (if_neg (not_not.mpr hmigrating)).trans (if_neg (not_not.mpr hconnected))

section Finish

variable (r : Registry) (d : Draw) (actorId : JsString) (source target : StoredStorageBinding)

theorem finishCutover_blobs : (r.finishCutover d actorId source target).2.blobs = r.blobs := by
  rw [Registry.finishCutover, Registry.versioned]
  split <;> rfl

theorem finishCutover_target : (r.finishCutover d actorId source target).2.bindings.get target.id =
    some { target with generation := target.generation + 1, updatedAt := d.later } := by
  simp only [Registry.finishCutover, versioned_bindings]
  rw [Registry.get_setBinding, if_pos rfl]

/-- The end of a cutover fails when the target has no profile. -/
theorem finishCutover_result : match r.profiles.get target.profileId with
    | some _ => ∃ summary, (r.finishCutover d actorId source target).1 = .ok summary
    | none => ∃ e, (r.finishCutover d actorId source target).1 = .error e := by
  rw [Registry.finishCutover, Registry.versioned, Registry.toSummary]
  simp only [Registry.setBinding_profiles]
  cases r.profiles.get target.profileId with
  | some p => exact ⟨_, rfl⟩
  | none => exact ⟨_, rfl⟩

end Finish

section Started

variable {r r₁ : Registry} {d : Draw} {input : CutoverInput} {source target : StoredStorageBinding}

/-- A cutover that moved every route has written the generation from before it. -/
theorem settled_of_moved (ht : r.bindings.get input.targetBindingId = some target)
    (hmoved : r.moveRoutes target input.objectDigests = (.ok (), r₁))
    (hmoves : ∀ x ∈ input.objectDigests, Moves r r₁ target x)
    (hout : r.cutoverMigrate d input = r₁.finishCutover d input.actorId source target)
    (h : CutoverSettles r d input) :
    input.objectDigests = [] ∧ (r.profiles.get target.profileId).isSome = true := by
  rw [CutoverSettles, hout] at h
  have htarget := finishCutover_target r₁ d input.actorId source target
  rw [KeyedMap.key_of_get ht] at htarget
  have hresult := finishCutover_result r₁ d input.actorId source target
  cases hp : r₁.profiles.get target.profileId with
  | none =>
    -- thrown at the end, with the generation of the target raised
    rw [hp] at hresult
    obtain ⟨e, herror⟩ := hresult
    rw [herror] at h
    have hsame := (h.2 input.targetBindingId).symm.trans htarget
    rw [ht, Option.some_inj] at hsame
    have hgeneration := congrArg StoredStorageBinding.generation hsame
    exact absurd hgeneration (Nat.ne_of_lt (Nat.lt_succ_self _))
  | some p =>
    rw [hp] at hresult
    obtain ⟨summary, hsummary⟩ := hresult
    rw [hsummary] at h
    have hkept := moveRoutes_keeps r target input.objectDigests
    rw [hmoved] at hkept
    have hprofiles := congrArg Registry.profiles hkept
    dsimp only at hprofiles
    refine ⟨List.eq_nil_iff_forall_not_mem.mpr ?_, by rw [← hprofiles, hp]; rfl⟩
    intro x hx
    obtain ⟨route, -, hget⟩ := hmoves x hx
    obtain ⟨route', -, -, target', -, -, -, htarget', -, -, -, hget'⟩ := h.2.1 x hx
    rw [Registry.readBlobRoute, finishCutover_blobs, hget, Option.some_inj] at hget'
    have hgeneration := congrArg BlobStickyRoute.storageBindingGeneration hget'
    rw [htarget, Option.some_inj] at htarget'
    rw [← htarget'] at hgeneration
    exact absurd hgeneration (Nat.ne_of_lt (Nat.lt_succ_self _))

/-- A refusal in the loop that changes no route had no route to move. -/
theorem refusedSettled_of_refused {before after : List ObjectDigest} {item : ObjectDigest}
    {e : StorageError} (hitems : input.objectDigests = before ++ item :: after)
    (hitem : checkedRoute r item = none) (hmoves : ∀ x ∈ before, Moves r r₁ target x)
    (hout : r.cutoverMigrate d input = (.error e, r₁)) (h : CutoverSettles r d input) :
    RefusedSettled r target input.objectDigests := by
  rw [CutoverSettles, hout] at h
  refine ⟨before, item, after, hitems, hitem, ?_⟩
  intro x hx
  obtain ⟨route, hroute, hget⟩ := hmoves x hx
  refine ⟨route, hroute, ?_⟩
  have hsame := h.1 x.objectId
  rw [Registry.readBlobRoute, Registry.readBlobRoute, checkedRoute_get hroute] at hsame
  exact Option.some_inj.mp (hget.symm.trans hsame)

/-- A cutover without objects has nothing to get wrong. -/
theorem settles_of_empty (hempty : input.objectDigests = [])
    (hprofile : (r.profiles.get target.profileId).isSome = true)
    (hout : r.cutoverMigrate d input = r.finishCutover d input.actorId source target) :
    CutoverSettles r d input := by
  have hresult := finishCutover_result r d input.actorId source target
  obtain ⟨p, hp⟩ := Option.isSome_iff_exists.mp hprofile
  rw [hp] at hresult
  obtain ⟨summary, hsummary⟩ := hresult
  rw [CutoverSettles, hout, hsummary, hempty]
  refine ⟨?_, nofun, fun _ _ _ _ => List.not_mem_nil⟩
  intro id _
  rw [Registry.readBlobRoute, finishCutover_blobs]
  rfl

end Started

/-- A cutover that is refused for its bindings changes nothing. -/
theorem cutoverMigrate_refused {r : Registry} {d : Draw} {input : CutoverInput}
    (h : ∀ source target, r.bindings.get input.sourceBindingId = some source →
      r.bindings.get input.targetBindingId = some target → source.status = .migrating →
        target.status ≠ .connected) : ∃ e, r.cutoverMigrate d input = (.error e, r) := by
  rw [Registry.cutoverMigrate]
  cases hs : r.bindings.get input.sourceBindingId with
  | none => exact ⟨_, rfl⟩
  | some source =>
    cases ht : r.bindings.get input.targetBindingId with
    | none => exact ⟨_, rfl⟩
    | some target =>
      dsimp only
      by_cases hmigrating : source.status = .migrating
      · rw [if_neg (not_not.mpr hmigrating), if_pos (h source target hs ht hmigrating)]
        exact ⟨_, rfl⟩
      · rw [if_pos hmigrating]
        exact ⟨_, rfl⟩

/-- A cutover does as it should exactly when it is refused for its bindings, when it has no
objects, or when it refuses an object before it has moved any route. -/
theorem cutover_settles_iff (r : Registry) (d : Draw) (input : CutoverInput) :
    CutoverSettles r d input ↔ CutoverCondition r input := by
  by_cases hrefused : ∀ source target, r.bindings.get input.sourceBindingId = some source →
      r.bindings.get input.targetBindingId = some target → source.status = .migrating →
        target.status ≠ .connected
  · obtain ⟨e, hout⟩ := cutoverMigrate_refused (d := d) hrefused
    constructor
    · intro _ source target hs ht hmigrating hconnected
      exact absurd hconnected (hrefused source target hs ht hmigrating)
    · intro _
      rw [CutoverSettles, hout]
      exact ⟨fun _ => rfl, fun _ => rfl⟩
  · push Not at hrefused
    obtain ⟨source, target, hs, ht, hmigrating, hconnected⟩ := hrefused
    have hstarted := cutoverMigrate_started (d := d) hs ht hmigrating hconnected
    constructor
    · rintro h source' target' hs' ht' - -
      rw [ht, Option.some_inj] at ht'
      subst ht'
      have hcases := moveRoutes_cases r target input.objectDigests
      cases hmoved : r.moveRoutes target input.objectDigests with
      | mk result r₁ =>
        rw [hmoved] at hcases hstarted
        obtain ⟨rfl, hmoves⟩ | ⟨rfl, before, item, after, hitems, hitem, hmoves⟩ := hcases
        · exact .inl (settled_of_moved ht hmoved hmoves hstarted h)
        · exact .inr (refusedSettled_of_refused hitems hitem hmoves hstarted h)
    · intro h
      obtain ⟨hempty, hprofile⟩ | ⟨before, item, after, hitems, hitem, hsettled⟩ :=
        h source target hs ht hmigrating hconnected
      · rw [hempty] at hstarted
        exact settles_of_empty hempty hprofile hstarted
      · rw [hitems, moveRoutes_settled hsettled, moveRoutes_cons, hitem] at hstarted
        rw [CutoverSettles, hstarted]
        exact ⟨fun _ => rfl, fun _ => rfl⟩

section Samples

/-- Two blobs on a binding that migrates, and a connected binding of a tenant. -/
def migratingSession : Session :=
  sampleSession [.upsertBinding (sampleUpsert none) (js "u"), .recordProbe [4, 0] sampleProbe,
    .upsertBinding (sampleUpsert (some (js "t"))) (js "u"), .recordProbe [4, 10] sampleProbe,
    .commitBlob ⟨js "x", sampleWorkspace, js "1", [4, 0], 1⟩,
    .commitBlob ⟨js "y", sampleWorkspace, js "2", [4, 0], 1⟩,
    .beginMigrate [4, 0]]

theorem migratingSession_reachable : registryMachine.Reachable migratingSession := by
  have hempty : registryMachine.Reachable (sampleSession []) := .init rfl
  refine next_reaches (next_reaches (next_reaches (next_reaches (next_reaches (next_reaches
    (next_reaches hempty trivial ?_) trivial ?_) trivial ?_) trivial ?_) trivial ?_) trivial ?_)
    trivial ?_
  all_goals decide

/-- The second digest is wrong, and the first blob is on the target by then. -/
def splitInput : CutoverInput := ⟨[4, 0], [4, 10], [⟨js "x", js "1"⟩, ⟨js "y", js "1"⟩], js "u"⟩

theorem refused_cutover_moves : registryMachine.Reachable migratingSession ∧
    ¬ CutoverSettles migratingSession.registry (sampleDraw 35) splitInput := by
  refine ⟨migratingSession_reachable, ?_⟩
  intro h
  have hrefused : (migratingSession.registry.cutoverMigrate (sampleDraw 35) splitInput).1 =
      .error Registry.digestMismatch := by rfl
  rw [CutoverSettles, hrefused] at h
  have hmoved := h.1 (js "x")
  revert hmoved
  decide

end Samples

end TrustCore.AppStorage
