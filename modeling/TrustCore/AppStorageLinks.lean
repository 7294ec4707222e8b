import TrustCore.AppStorageSaves

/-!
# A process and a fixture side by side

The process runs a command over its memory and saves what it wrote; the fixture runs it
over a registry that is all it has. Every part of a command keeps the two linked and gives
both the same result, as long as the database executes what it is asked to.
-/

namespace TrustCore.AppStorage

open TrustCore.Utf TrustCore.KeyedMaps TrustCore.Methods

/-- The tables hold what the registry holds, and the memory holds that of the workspaces
that are marked as hydrated and of some more. -/
structure Linked (used : List JsString) (extra : JsString → Prop) (r : Registry) (s : Durable) :
    Prop where
  regular : Regular r used
  tables : Mirrors (fun _ => True) r.holdings s.database.holdings
  memory : Mirrors (fun w => w ∈ s.hydratedWorkspaces ∨ extra w) r.holdings s.memory.holdings
  noRoutes : s.memory.blobs = .empty
  noAssume : s.memory.assumeWithoutExternalId = .empty
  noRows : s.database.blobs = .empty
  executes : ∀ a ∈ s.answers, a = .executes

variable {r r' : Registry} {s : Durable} {used : List JsString} {W : JsString}
  {extra : JsString → Prop} {b b' : StoredStorageBinding} {p p' q q' : StoredStorageProfile}
  {row : StorageProfileRow} {v v' : Option BindingVersion} {t t' : ApplicationTenant} {d : Draw}
  {id rowId : JsString}

theorem Linked.mono {extra' : JsString → Prop} (h : Linked used extra r s)
    (hextra : ∀ w, extra' w → w ∈ s.hydratedWorkspaces ∨ extra w) : Linked used extra' r s where
  regular := h.regular
  tables := h.tables
  memory := h.memory.mono fun w hw => hw.elim .inl (hextra w)
  noRoutes := h.noRoutes
  noAssume := h.noAssume
  noRows := h.noRows
  executes := h.executes

theorem Linked.grow (h : Linked used extra r s) (hfresh : d.Fresh used) :
    Linked (d.ids ++ used) extra r s where
  regular := h.regular.grow hfresh
  tables := h.tables
  memory := h.memory
  noRoutes := h.noRoutes
  noAssume := h.noAssume
  noRows := h.noRows
  executes := h.executes

theorem Linked.hydrate (h : Linked used extra r s) (W : JsString) :
    Linked used (· = W) r (s.hydrate W) := by
  rw [Durable.hydrate]
  split
  · rename_i hmarked
    apply h.mono
    rintro w rfl
    exact .inl hmarked
  · refine ⟨h.regular, h.tables, ?_, h.noRoutes, h.noAssume, h.noRows, h.executes⟩
    apply (Mirrors.load (W := W) h.regular h.tables h.memory).mono
    rintro w (hw | hw)
    · obtain rfl | hw := Finset.mem_insert.mp hw
      · exact .inr rfl
      · exact .inl (.inl hw)
    · exact .inr hw

/-- The process has just started. -/
theorem Linked.restart (h : Linked used extra r s) :
    Linked used (fun _ => False) r (.fresh s.database) where
  regular := h.regular
  tables := h.tables
  memory := Mirrors.unloaded fun _ h => h.elim (Finset.notMem_empty _) id
  noRoutes := rfl
  noAssume := rfl
  noRows := h.noRows
  executes := fun _ ha => absurd ha List.not_mem_nil

/-! ## One binding on all sides -/

/-- A binding and its profile in the registry of the fixture, in the memory and in the tables. -/
structure Copies (r : Registry) (s : Durable) (id : JsString) (b : StoredStorageBinding)
    (p q : StoredStorageProfile) (row : StorageProfileRow) : Prop where
  fixture : r.bindings.get id = some b
  fixtureProfile : r.profiles.get b.profileId = some p
  memory : s.memory.bindings.get id = some b
  memoryProfile : s.memory.profiles.get b.profileId = some q
  table : s.database.bindings.get id = some b
  tableProfile : s.database.profiles.get b.profileId = some row
  memoryHeld : q.held = p.held
  tableHeld : row.held = p.held
  workspaceId : p.workspaceId = b.workspaceId

theorem Linked.copies (h : Linked used (· = W) r s) (hb : r.bindings.get id = some b)
    (hW : b.workspaceId = W) : ∃ p q row, Copies r s id b p q row := by
  have hmem := KeyedMap.mem_of_get hb
  have hid := KeyedMap.key_of_get hb
  obtain ⟨p, hp, hworkspace⟩ := h.regular.sound.profiled b hmem
  have hheld : r.holdings.profile b.profileId = some p.held := by
    simp only [Registry.holdings, hp, Option.map_some]
  have hmemory := h.memory.bindings b hmem (.inr hW)
  have htable := h.tables.bindings b hmem trivial
  obtain ⟨q, hq, hqheld⟩ :=
    Option.map_eq_some_iff.mp ((h.memory.profiles b hmemory).trans hheld)
  obtain ⟨row, hrow, hrowheld⟩ :=
    Option.map_eq_some_iff.mp ((h.tables.profiles b htable).trans hheld)
  exact ⟨p, q, row, hb, hp, KeyedMap.get_eq_some.mpr ⟨hmemory, hid⟩, hq,
    KeyedMap.get_eq_some.mpr ⟨htable, hid⟩, hrow, hqheld, hrowheld, hworkspace⟩

theorem Copies.summary (c : Copies r s id b p q row) :
    q.toStorageProfileSummary = p.toStorageProfileSummary :=
  congrArg HeldProfile.toStorageProfileSummary c.memoryHeld

/-- The versions under the id of a binding are its own. -/
theorem predecessor (hb : b ∈ r.bindings.values) (hu : Updates b b') :
    ∀ w ∈ r.holdings.versions, w.bindingId = b'.id →
      ∃ b₀ ∈ r.holdings.bindings.values, b₀.id = b'.id ∧ b₀.workspaceId = b'.workspaceId :=
  fun _ _ _ => ⟨b, hb, hu.id.symm, hu.workspaceId.symm⟩

/-- The state once a step has saved. -/
def Durable.saved (s : Durable) (m : Registry) (db : Database) (answers : List Answer)
    (workspaceId : JsString) : Durable :=
  { s with
    memory := m
    database := db
    answers := answers
    hydratedWorkspaces := s.hydratedWorkspaces.erase workspaceId }

theorem Linked.saved {used' : List JsString} {m : Registry} {db : Database}
    {answers : List Answer} (h : Linked used (· = W) r s) (hregular : Regular r' used')
    (htables : Mirrors (fun _ => True) r'.holdings db.holdings)
    (hmemory : Mirrors (fun w => w ∈ s.hydratedWorkspaces ∨ w = W) r'.holdings m.holdings)
    (hroutes : m.blobs = s.memory.blobs)
    (hassume : m.assumeWithoutExternalId = s.memory.assumeWithoutExternalId)
    (hrows : db.blobs = s.database.blobs) (hanswers : ∀ a ∈ answers, a = .executes) :
    Linked used' (· = W) r' (s.saved m db answers W) where
  regular := hregular
  tables := htables
  memory := hmemory.mono fun _ hw => hw.imp_left Finset.mem_of_mem_erase
  noRoutes := hroutes.trans h.noRoutes
  noAssume := hassume.trans h.noAssume
  noRows := hrows.trans h.noRows
  executes := hanswers

theorem Linked.wrote {db : Database} {answers : List Answer} (h : Linked used (· = W) r s)
    (c : Copies r s id b p q row) (hu : Updates b b') (hid : p'.id = p.id)
    (hworkspace : p'.workspaceId = p.workspaceId) (hsame : q'.held = p'.held)
    (hv : ∀ w ∈ v, Versions b b' w)
    (hversions : v'.toList.map BindingVersion.held = v.toList.map BindingVersion.held)
    (hdb : db.holdings = s.database.holdings.put p'.held b' (v.toList.map (·.held)))
    (hrows : db.blobs = s.database.blobs) (hanswers : ∀ a ∈ answers, a = .executes) :
    Linked used (· = W) (r.write p' b' v) (s.saved (s.memory.write q' b' v') db answers W) := by
  have hmem := KeyedMap.mem_of_get c.fixture
  have hkey : p'.id = b'.profileId :=
    hid.trans ((profile_id c.fixtureProfile).trans hu.profileId.symm)
  have hkey' : q'.id = b'.profileId := by
    rw [← hkey]
    exact congrArg (fun P : HeldProfile => P.id) hsame
  have hregular := h.regular.write hmem hu c.fixtureProfile hid hworkspace hv
  have hold := predecessor hmem hu
  refine h.saved hregular ?_ ?_ rfl rfl hrows hanswers
  · rw [write_holdings hkey, hdb]
    exact h.tables.put hold
  · rw [write_holdings hkey, write_holdings hkey', hsame, hversions]
    exact h.memory.put hold

/-! ## Steps of a process -/

theorem exec_transact {α : Type} {f : Transaction α} {a : α} {db : Database}
    (hexecutes : ∀ a ∈ s.answers, a = .executes) (hf : f s.database = .ok (a, db)) :
    ∃ answers, (∀ a ∈ answers, a = .executes) ∧
      (transact f).exec s = (.ok a, { s with database := db, answers := answers }) := by
  cases hanswers : s.answers with
  | nil =>
    refine ⟨[], fun _ ha => absurd ha List.not_mem_nil, ?_⟩
    simp only [transact, Method.exec_of, hanswers, Durable.execute, hf]
  | cons answer answers =>
    obtain rfl : answer = .executes := hexecutes answer (hanswers ▸ List.mem_cons_self)
    refine ⟨answers, fun a ha => hexecutes a (hanswers ▸ List.mem_cons_of_mem _ ha), ?_⟩
    simp only [transact, Method.exec_of, hanswers, Durable.execute, hf]

theorem exec_save {f : Transaction Unit} {db : Database}
    (hexecutes : ∀ a ∈ s.answers, a = .executes) (hf : f s.database = .ok ((), db))
    (workspaceId : JsString) :
    ∃ answers, (∀ a ∈ answers, a = .executes) ∧
      (do transact f; unmark workspaceId : Method Durable StorageError Unit).exec s =
        (.ok (), s.saved s.memory db answers workspaceId) := by
  obtain ⟨answers, hanswers, hexec⟩ := exec_transact hexecutes hf
  exact ⟨answers, hanswers, by rw [Method.exec_bind_ok hexec]; rfl⟩

end TrustCore.AppStorage
