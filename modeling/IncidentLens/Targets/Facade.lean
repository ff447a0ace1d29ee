import IncidentLens.Effects.Runs
import IncidentLens.Targets.Service

/-!
# Ids of the target facade

An id stands for one target for good, listing never fails and a removal is whole, as long as bound targets leave
the registry through the facade only, no id is used again for another target, and nobody writes to the registry
in the middle of a removal.
-/
namespace IncidentLens.Targets
open Data Effects RemoteOps Evidence TargetStore List RegistryTarget

def Projects.registered (projects : Projects) : List RegistryTarget := projects.listRegistryTargets.map Prod.fst

def TargetStore.bound (store : TargetStore) : List RegistryTarget := store.rows.map TargetBinding.target

section
variable (sha256 : Sha256)

/-- The registry has all that is bound, and what is not bound yet can have its ids. -/
structure Clear (registered bound : List RegistryTarget) (handedOut : List (String × RegistryTarget)) : Prop where
  kept : ∀ x ∈ bound, x ∈ registered
  hashes : ∀ x ∈ registered, ∀ y ∈ registered, x ≠ y →
    hashedId sha256 x ≠ hashedId sha256 y ∧ hashedId sha256 x ≠ y.registryTargetId
  ids : ∀ x ∈ registered, x ∉ bound → ∀ e ∈ handedOut, (e.1 = hashedId sha256 x → e.2 = x) ∧
    (e.1 = x.registryTargetId → e.2 = x ∨ e.2 ∈ registered ∧ e.2.registryTargetId = x.registryTargetId)

namespace Facade
variable (s : Facade)

/-- What an id stands for: the target bound to it, or else one whose id it would be. -/
def Names (targetId : String) (target : RegistryTarget) : Prop :=
  (∃ binding ∈ s.store.rows, binding.targetId = targetId ∧ binding.target = target) ∨
    (∀ binding ∈ s.store.rows, binding.targetId ≠ targetId) ∧ target ∈ s.projects.registered ∧
      deriveFacadeId sha256 target (globallyUnique s.projects.listRegistryTargets target.registryTargetId) = targetId

/-- Listing succeeds, and ids and targets belong to each other for good. -/
structure Faithful : Prop where
  listed : ∀ now, ∃ views, (s.listTargets sha256 now).1 = .ok views
  injective : ∀ b ∈ s.store.rows, ∀ b' ∈ s.store.rows, b.targetId = b'.targetId ↔ b.target = b'.target
  stable : ∀ e ∈ s.handedOut, ∀ e' ∈ s.handedOut, e.1 = e'.1 → e.2 = e'.2
  recorded : ∀ b ∈ s.store.rows, (b.targetId, b.target) ∈ s.handedOut

/-- A removal removes a target from both stores, or nothing. -/
structure RemovesWhole (targetId : String) (result : Except TargetError Unit × Facade) : Prop where
  removed : result.1 = .ok () → ∃ target, s.Names sha256 targetId target ∧ target ∉ result.2.projects.registered ∧
    ∀ b ∈ result.2.store.rows, b.targetId ≠ targetId
  unchanged : ∀ e, result.1 = .error e → result.2.projects = s.projects ∧ ∀ b ∈ s.store.rows, b ∈ result.2.store.rows

/-- Bindings stay, except for the one that is removed. -/
def Steady : FacadeMove → Prop
  | .deleteTarget targetId active now before between =>
    let result := s.deleteTarget sha256 targetId active now before between
    s.RemovesWhole sha256 targetId result ∧ ∀ b ∈ s.store.rows, b.targetId ≠ targetId → b ∈ result.2.store.rows
  | move => ∀ b ∈ s.store.rows, b ∈ (s.step sha256 move).store.rows

/-- A write to the registry leaves what is bound and uses no id again for another target; the identifiers of a new
target are new; nobody else writes during a removal, and what shares the id of the removed target is bound. -/
def Undisturbed : FacadeMove → Prop
  | .change change => Clear sha256 (s.projects.change change).registered s.store.bound s.handedOut
  | .listTargets _ | .getTarget _ _ => True
  | .createTarget _ projectHex targetHex _ =>
    let target : RegistryTarget := ⟨facadeProjectPrefix ++ projectHex, internalTargetId⟩
    (∀ project ∈ s.projects.rows, project.projectId ≠ target.projectId) ∧ (∀ e ∈ s.handedOut, e.1 ≠ "tgt_" ++ targetHex) ∧
      Clear sha256 (target :: s.projects.registered) (target :: s.store.bound) (("tgt_" ++ targetHex, target) :: s.handedOut)
  | .deleteTarget targetId _ _ before between => before = [] ∧ between = [] ∧ ∀ target, s.Names sha256 targetId target →
    (∀ y ∈ s.projects.registered, y ≠ target → y.registryTargetId = target.registryTargetId → y ∈ s.store.bound) ∧
      (facadeOwned target.projectId → ∀ y ∈ s.projects.registered, y.projectId = target.projectId → y = target)

/-- What holds of the stores as long as nothing is disturbed. -/
structure Sound : Prop where
  clear : Clear sha256 s.projects.registered s.store.bound s.handedOut
  stable : ∀ e ∈ s.handedOut, ∀ e' ∈ s.handedOut, e.1 = e'.1 → e.2 = e'.2
  recorded : ∀ b ∈ s.store.rows, (b.targetId, b.target) ∈ s.handedOut

/-- An access has bound some targets of the registry. -/
structure Extends (t : Facade) : Prop where
  sound : t.Sound sha256
  projects : t.projects = s.projects
  rows : ∀ b ∈ s.store.rows, b ∈ t.store.rows

end Facade
end

variable {sha256 : Sha256} {s t : Facade}

/-! ### The stores -/

variable {projects : Projects} {x : RegistryTarget} {store : TargetStore}

lemma Projects.mem_registered : x ∈ projects.registered ↔
      ∃ project ∈ projects.rows, x.projectId = project.projectId ∧ x.registryTargetId ∈ project.targets.map (·.targetId) := by
  simp only [registered, listRegistryTargets, list, mem_map, mem_flatMap, mem_insertionSort]
  constructor
  · rintro ⟨item, ⟨project, hproject, target, htarget, rfl⟩, rfl⟩
    exact ⟨project, hproject, rfl, target, htarget, rfl⟩
  · rintro ⟨project, hproject, hid, target, htarget, htargetId⟩
    refine ⟨(x, project.displayName), ⟨project, hproject, target, htarget, ?_⟩, rfl⟩
    rw [htargetId, ← hid]

lemma Projects.mem_registered_create {projects projects' : Projects} {registration : Registration} {now : String}
    (h : projects.create registration now = .ok projects') : x ∈ projects'.registered ↔
      x ∈ projects.registered ∨ x.projectId = registration.projectId ∧
        x.registryTargetId ∈ registration.targets.map (·.targetId) := by
  unfold Projects.create at h
  split_ifs at h
  cases h
  simp only [Projects.mem_registered, mem_append, mem_singleton, or_and_right, exists_or, exists_eq_left]

lemma Projects.mem_registered_remove {projectId : String} :
    x ∈ (projects.remove projectId).registered ↔ x ∈ projects.registered ∧ x.projectId ≠ projectId := by
  simp only [Projects.mem_registered, Projects.remove, mem_filter, decide_eq_true_eq]
  constructor
  · rintro ⟨project, ⟨hmem, hother⟩, hid, htarget⟩
    exact ⟨⟨project, hmem, hid, htarget⟩, hid ▸ hother⟩
  · rintro ⟨⟨project, hmem, hid, htarget⟩, hother⟩
    exact ⟨project, ⟨hmem, hid ▸ hother⟩, hid, htarget⟩

lemma Projects.mem_registered_write {old project : Project} (hold : old ∈ projects.rows)
    (hid : project.projectId = old.projectId) : x ∈ (projects.write project).registered ↔
      if x.projectId = old.projectId then x.registryTargetId ∈ project.targets.map (·.targetId) else x ∈ projects.registered := by
  have hrows : ∀ row, row ∈ (projects.write project).rows ↔
      row = project ∨ row ∈ projects.rows ∧ row.projectId ≠ old.projectId := by
    intro row
    simp only [write, replaceRow, mem_map]
    constructor
    · rintro ⟨stored, hstored, rfl⟩
      split_ifs with hsame
      · exact .inl rfl
      · exact .inr ⟨hstored, hid ▸ hsame⟩
    · rintro (rfl | ⟨hstored, hother⟩)
      · exact ⟨old, hold, if_pos hid.symm⟩
      · exact ⟨row, hstored, if_neg (hid ▸ hother)⟩
  rw [mem_registered]
  split_ifs with hsame
  · constructor
    · rintro ⟨row, hrow, hrowId, htarget⟩
      rcases (hrows row).mp hrow with rfl | ⟨-, hother⟩
      · exact htarget
      · exact absurd (hrowId.symm.trans hsame) hother
    · intro htarget
      exact ⟨project, (hrows project).mpr (.inl rfl), hsame.trans hid.symm, htarget⟩
  · rw [mem_registered]
    constructor
    · rintro ⟨row, hrow, hrowId, htarget⟩
      rcases (hrows row).mp hrow with rfl | ⟨hstored, -⟩
      · exact absurd (hrowId.trans hid) hsame
      · exact ⟨row, hstored, hrowId, htarget⟩
    · rintro ⟨row, hstored, hrowId, htarget⟩
      exact ⟨row, (hrows row).mpr (.inr ⟨hstored, hrowId ▸ hsame⟩), hrowId, htarget⟩

lemma Projects.get_eq_some_iff {projectId : String} {project : Project} :
    projects.get projectId = some project ↔ project ∈ projects.rows ∧ project.projectId = projectId := by
  constructor
  · intro h
    exact ⟨mem_of_find?_eq_some h, by simpa using find?_some h⟩
  · rintro ⟨hmem, rfl⟩
    exact find?_of_nodup projects.unique hmem

lemma Projects.eq_of_projectId {project project' : Project} (h : project ∈ projects.rows)
    (h' : project' ∈ projects.rows) (hid : project.projectId = project'.projectId) : project = project' :=
  inj_on_of_nodup_map projects.unique h h' hid

lemma TargetStore.eq_of_targetId {b b' : TargetBinding} (h : b ∈ store.rows) (h' : b' ∈ store.rows)
    (hid : b.targetId = b'.targetId) : b = b' :=
  inj_on_of_nodup_map store.ids h h' hid

lemma TargetStore.eq_of_target {b b' : TargetBinding} (h : b ∈ store.rows) (h' : b' ∈ store.rows)
    (htarget : b.target = b'.target) : b = b' :=
  inj_on_of_nodup_map store.targets h h' htarget

lemma TargetStore.mem_bound : x ∈ store.bound ↔ ∃ b ∈ store.rows, b.target = x :=
  mem_map

lemma Facade.bind_eq_ok {binding : TargetBinding} (hid : ∀ b ∈ s.store.rows, b.targetId ≠ binding.targetId)
    (hfree : binding.target ∉ s.store.bound) : ∃ t, s.bind binding = .ok t ∧ t.projects = s.projects ∧
      t.store.rows = s.store.rows ++ [binding] ∧ t.handedOut = s.handedOut ++ [(binding.targetId, binding.target)] := by
  have hnew : ¬ ∃ row ∈ s.store.rows, row.targetId = binding.targetId ∨ row.target = binding.target := by
    rintro ⟨row, hrow, hsame | hsame⟩
    · exact hid row hrow hsame
    · exact hfree (mem_bound.mpr ⟨row, hrow, hsame⟩)
  unfold Facade.bind TargetStore.create
  rw [dif_neg hnew]
  exact ⟨_, rfl, rfl, rfl, rfl⟩

lemma Facade.bind_error (binding : TargetBinding) (h : binding.target ∈ s.store.bound) :
    s.bind binding = .error .alreadyExists := by
  obtain ⟨row, hrow, hsame⟩ := mem_bound.mp h
  unfold Facade.bind TargetStore.create
  rw [dif_pos ⟨row, hrow, .inr hsame⟩]

lemma eq_of_globallyUnique {all : List (RegistryTarget × String)} {x y : RegistryTarget} (hx : x ∈ all.map Prod.fst)
    (hy : y ∈ all.map Prod.fst) (hsame : y.registryTargetId = x.registryTargetId)
    (hunique : globallyUnique all x.registryTargetId = true) : y = x := by
  have hcount : ((all.map Prod.fst).map registryTargetId).count x.registryTargetId = 1 := by
    rw [map_map]
    exact of_decide_eq_true hunique
  rw [count, countP_map, countP_eq_length_filter] at hcount
  obtain ⟨z, hz⟩ := length_eq_one_iff.mp hcount
  have hmem : ∀ w ∈ all.map Prod.fst, w.registryTargetId = x.registryTargetId → w = z := by
    intro w hw hid
    have : w ∈ [z] := by
      rw [← hz]
      exact mem_filter.mpr ⟨hw, by simp [hid]⟩
    exact mem_singleton.mp this
  rw [hmem y hy hsame, hmem x hx rfl]

lemma Clear.congr {registered registered' bound bound' : List RegistryTarget} {handedOut handedOut' : List (String × RegistryTarget)}
    (h : Clear sha256 registered bound handedOut) (hregistered : ∀ x, x ∈ registered' ↔ x ∈ registered)
    (hbound : ∀ x, x ∈ bound' ↔ x ∈ bound) (hhanded : ∀ e, e ∈ handedOut' ↔ e ∈ handedOut) :
    Clear sha256 registered' bound' handedOut' := by
  refine ⟨fun x hx => ?_, fun x hx y hy => ?_, fun x hx hfree e he => ?_⟩
  · exact (hregistered x).mpr (h.kept x ((hbound x).mp hx))
  · exact h.hashes x ((hregistered x).mp hx) y ((hregistered y).mp hy)
  · rw [hregistered]
    exact h.ids x ((hregistered x).mp hx) (mt (hbound x).mpr hfree) e ((hhanded e).mp he)

/-! ### Binding -/

namespace Facade

lemma Extends.refl (h : s.Sound sha256) : s.Extends sha256 s := ⟨h, rfl, fun _ hb => hb⟩

lemma Extends.trans {u : Facade} (h : s.Extends sha256 t) (h' : t.Extends sha256 u) : s.Extends sha256 u :=
  ⟨h'.sound, h'.projects.trans h.projects, fun b hb => h'.rows b (h.rows b hb)⟩

lemma Sound.derived (h : s.Sound sha256) {x : RegistryTarget} (hx : x ∈ s.projects.registered) (hfree : x ∉ s.store.bound) :
    ∀ e ∈ s.handedOut, e.1 = deriveFacadeId sha256 x (globallyUnique s.projects.listRegistryTargets x.registryTargetId) →
      e.2 = x := by
  intro e he hid
  obtain ⟨hhash, hregistry⟩ := h.clear.ids x hx hfree e he
  unfold deriveFacadeId at hid
  split_ifs at hid with hunique
  · rcases hregistry hid with hsame | ⟨hregistered, hsame⟩
    · exact hsame
    · exact eq_of_globallyUnique hx hregistered hsame hunique
  · exact hhash hid

lemma Sound.bindExisting (h : s.Sound sha256) {item : RegistryTarget × String} (hitem : item ∈ s.projects.listRegistryTargets)
    (hfree : item.1 ∉ s.store.bound) (now : String) :
    ∃ t, s.bind (buildExistingBinding sha256 s.projects.listRegistryTargets item now) = .ok t ∧ s.Extends sha256 t ∧
      t.store.rows = s.store.rows ++ [buildExistingBinding sha256 s.projects.listRegistryTargets item now] := by
  have hx : item.1 ∈ s.projects.registered := mem_map_of_mem hitem
  have hderived := h.derived hx hfree
  have hnew : ∀ b ∈ s.store.rows,
      b.targetId ≠ (buildExistingBinding sha256 s.projects.listRegistryTargets item now).targetId := fun b hb hid =>
    hfree (mem_bound.mpr ⟨b, hb, hderived _ (h.recorded b hb) hid⟩)
  obtain ⟨t, hbind, hprojects, hrows, hhanded⟩ := bind_eq_ok hnew hfree
  have hbound : ∀ y, y ∈ t.store.bound ↔ y ∈ s.store.bound ∨ y = item.1 := by
    intro y
    rw [TargetStore.bound, hrows, map_append, mem_append, map_singleton, mem_singleton]
    exact Iff.rfl
  -- the id is one of the two that are the target's
  have hown : ∀ y ∈ s.projects.registered, y ≠ item.1 →
      ∀ id, id = deriveFacadeId sha256 item.1 (globallyUnique s.projects.listRegistryTargets item.1.registryTargetId) →
        id ≠ hashedId sha256 y ∧ (id = y.registryTargetId → item.1.registryTargetId = y.registryTargetId) := by
    intro y hy hne id hid
    have hhashes := h.clear.hashes item.1 hx y hy (Ne.symm hne)
    unfold deriveFacadeId at hid
    split_ifs at hid
    · exact ⟨fun hsame => (h.clear.hashes y hy item.1 hx hne).2 (hsame.symm.trans hid), fun hsame => hid.symm.trans hsame⟩
    · exact ⟨fun hsame => hhashes.1 (hid.symm.trans hsame), fun hsame => absurd (hid.symm.trans hsame) hhashes.2⟩
  refine ⟨t, hbind, ⟨⟨⟨?_, ?_, ?_⟩, ?_, ?_⟩, hprojects, ?_⟩, hrows⟩
  · intro y hy
    rw [hprojects]
    rcases (hbound y).mp hy with hold | rfl
    · exact h.clear.kept y hold
    · exact hx
  · rw [hprojects]
    exact h.clear.hashes
  · intro y hy hfree' e he
    rw [hprojects] at hy ⊢
    have hne : y ≠ item.1 := fun hsame => hfree' ((hbound y).mpr (.inr hsame))
    rw [hhanded, mem_append, mem_singleton] at he
    rcases he with hold | rfl
    · exact h.clear.ids y hy (fun hmem => hfree' ((hbound y).mpr (.inl hmem))) e hold
    · obtain ⟨hhash, hregistry⟩ := hown y hy hne _ rfl
      exact ⟨fun hsame => absurd hsame hhash, fun hsame => .inr ⟨hx, hregistry hsame⟩⟩
  · rw [hhanded]
    intro e he e' he' hid
    rcases mem_append.mp he with he | he <;> rcases mem_append.mp he' with he' | he'
    · exact h.stable e he e' he' hid
    · obtain rfl := mem_singleton.mp he'
      exact hderived e he hid
    · obtain rfl := mem_singleton.mp he
      exact (hderived e' he' hid.symm).symm
    · rw [mem_singleton.mp he, mem_singleton.mp he']
  · intro b hb
    rw [hrows, mem_append, mem_singleton] at hb
    rw [hhanded]
    rcases hb with hold | rfl
    · exact mem_append_left _ (h.recorded b hold)
    · exact mem_append_right _ (mem_singleton_self _)
  · intro b hb
    rw [hrows]
    exact mem_append_left _ hb

lemma Sound.bindAll (h : s.Sound sha256) {all : List (RegistryTarget × String)} (hall : s.projects.listRegistryTargets = all)
    {items : List (RegistryTarget × String)} (hitems : ∀ item ∈ items, item ∈ all) {bound : List RegistryTarget}
    (hbound : ∀ x, x ∈ bound ↔ x ∈ s.store.bound) (now : String) :
    ∃ t, Targets.bindExisting sha256 all now items bound s = (.ok (), t) ∧ s.Extends sha256 t := by
  induction items generalizing s bound with
  | nil => exact ⟨s, rfl, .refl h⟩
  | cons item rest ih =>
    have hrest : ∀ item ∈ rest, item ∈ all := fun item hitem => hitems item (mem_cons_of_mem _ hitem)
    rw [Targets.bindExisting]
    by_cases hmem : item.1 ∈ bound
    · rw [if_pos hmem]
      exact ih h hall hrest hbound
    · rw [if_neg hmem]
      have hitem : item ∈ s.projects.listRegistryTargets := hall ▸ hitems item mem_cons_self
      obtain ⟨t, hbind, hextends, hrows⟩ := h.bindExisting hitem (mt (hbound item.1).mpr hmem) now
      rw [hall] at hbind
      rw [hbind]
      have hbound' : ∀ x, x ∈ bound ++ [item.1] ↔ x ∈ t.store.bound := by
        intro x
        rw [TargetStore.bound, hrows, map_append, mem_append, mem_append, hbound x]
        exact Iff.rfl
      obtain ⟨u, hu, hlater⟩ := ih hextends.sound (hextends.projects ▸ hall) hrest hbound'
      exact ⟨u, hu, hextends.trans hlater⟩

lemma Sound.listTargets (h : s.Sound sha256) (now : String) :
    ∃ views t, s.listTargets sha256 now = (.ok views, t) ∧ s.Extends sha256 t := by
  have hbound : ∀ x, x ∈ s.store.list.map TargetBinding.target ↔ x ∈ s.store.bound := by
    intro x
    simp only [TargetStore.list, TargetStore.bound, mem_map, mem_insertionSort]
  obtain ⟨t, ht, hextends⟩ := h.bindAll rfl (fun _ hitem => hitem) hbound now
  refine ⟨t.store.list.filterMap t.toView, t, ?_, hextends⟩
  unfold Facade.listTargets
  dsimp only
  rw [ht]

lemma Sound.bindingForAccess (h : s.Sound sha256) (targetId now : String) :
    (∃ binding t, s.bindingForAccess sha256 targetId now = (.ok binding, t) ∧ s.Extends sha256 t ∧ binding ∈ t.store.rows ∧
      binding.targetId = targetId ∧ s.Names sha256 targetId binding.target) ∨
    ∃ e, s.bindingForAccess sha256 targetId now = (.error e, s) := by
  unfold Facade.bindingForAccess
  cases hget : s.store.get targetId with
  | some binding =>
    have hmem := mem_of_find?_eq_some hget
    have hid : binding.targetId = targetId := by simpa using find?_some hget
    exact .inl ⟨binding, s, rfl, .refl h, hmem, hid, .inl ⟨binding, hmem, hid, rfl⟩⟩
  | none =>
    dsimp only
    split
    · exact .inr ⟨_, rfl⟩
    next item hfound =>
      have hitem := mem_of_find?_eq_some hfound
      have hid : deriveFacadeId sha256 item.1 (globallyUnique s.projects.listRegistryTargets item.1.registryTargetId) = targetId := by
        simpa using find?_some hfound
      by_cases hbound : item.1 ∈ s.store.bound
      · rw [bind_error (buildExistingBinding sha256 s.projects.listRegistryTargets item now) hbound]
        exact .inr ⟨_, rfl⟩
      · obtain ⟨t, hbind, hextends, hrows⟩ := h.bindExisting hitem hbound now
        rw [hbind]
        refine .inl ⟨_, t, rfl, hextends, ?_, hid, .inr ⟨fun b hb hsame => ?_, mem_map_of_mem hitem, hid⟩⟩
        · rw [hrows]
          exact mem_append_right _ (mem_singleton_self _)
        · have hnone := find?_eq_none.mp hget b hb
          exact hnone (by simpa using hsame)

lemma Sound.getTarget (h : s.Sound sha256) (targetId now : String) :
    s.Extends sha256 (s.getTarget sha256 targetId now).2 := by
  unfold Facade.getTarget
  rcases h.bindingForAccess targetId now with ⟨binding, t, haccess, hextends, -⟩ | ⟨e, haccess⟩
  · rw [haccess]
    dsimp only
    cases t.toView binding <;> exact hextends
  · rw [haccess]
    exact .refl h

/-! ### New targets -/

lemma Sound.createTarget (h : s.Sound sha256) {create : TargetCreate} {projectHex targetHex now : String}
    (hgood : s.Undisturbed sha256 (.createTarget create projectHex targetHex now)) :
    (s.createTarget create projectHex targetHex now).2.Sound sha256 ∧
      ∀ b ∈ s.store.rows, b ∈ (s.createTarget create projectHex targetHex now).2.store.rows := by
  obtain ⟨hproject, hid, hclear⟩ := hgood
  have hfree : ¬ ∃ project ∈ s.projects.rows, project.projectId = (internalProject create projectHex).projectId := by
    rintro ⟨project, hmem, hsame⟩
    exact hproject project hmem hsame
  obtain ⟨projects, hprojects⟩ : ∃ projects, s.projects.create (internalProject create projectHex) now = .ok projects := by
    unfold Projects.create
    rw [dif_neg hfree]
    exact ⟨_, rfl⟩
  have hunbound : (createdBinding create projectHex targetHex now).target ∉ s.store.bound := by
    intro hbound
    obtain ⟨project, hmem, hsame, -⟩ := Projects.mem_registered.mp (h.clear.kept _ hbound)
    exact hproject project hmem hsame.symm
  have hnew : ∀ b ∈ s.store.rows, b.targetId ≠ (createdBinding create projectHex targetHex now).targetId :=
    fun b hb => hid _ (h.recorded b hb)
  obtain ⟨t, hbind, htprojects, hrows, hhanded⟩ := bind_eq_ok (s := { s with projects := projects }) hnew hunbound
  have hstate : (s.createTarget create projectHex targetHex now).2 = t := by
    unfold Facade.createTarget
    rw [hprojects]
    dsimp only
    rw [hbind]
    dsimp only
    cases t.toView (createdBinding create projectHex targetHex now) <;> rfl
  rw [hstate]
  refine ⟨⟨hclear.congr (fun x => ?_) (fun x => ?_) (fun e => ?_), ?_, ?_⟩, fun b hb => ?_⟩
  · rw [htprojects, Projects.mem_registered_create hprojects, mem_cons, or_comm]
    refine or_congr_left ?_
    have hlisted : x.registryTargetId ∈ [internalTargetId] ↔ x.registryTargetId = internalTargetId := mem_singleton
    constructor
    · rintro ⟨hproject', htarget⟩
      exact RegistryTarget.ext hproject' (hlisted.mp htarget)
    · rintro rfl
      exact ⟨rfl, hlisted.mpr rfl⟩
  · rw [TargetStore.bound, hrows, map_append, mem_append, map_singleton, mem_singleton, mem_cons, or_comm]
    exact Iff.rfl
  · rw [hhanded, mem_append, mem_singleton, mem_cons, or_comm]
    exact Iff.rfl
  · rw [hhanded]
    intro e he e' he' hsame
    rcases mem_append.mp he with he | he <;> rcases mem_append.mp he' with he' | he'
    · exact h.stable e he e' he' hsame
    · obtain rfl := mem_singleton.mp he'
      exact absurd hsame (hid e he)
    · obtain rfl := mem_singleton.mp he
      exact absurd hsame.symm (hid e' he')
    · rw [mem_singleton.mp he, mem_singleton.mp he']
  · intro b hb
    rw [hrows, mem_append, mem_singleton] at hb
    rw [hhanded]
    rcases hb with hold | rfl
    · exact mem_append_left _ (h.recorded b hold)
    · exact mem_append_right _ (mem_singleton_self _)
  · rw [hrows]
    exact mem_append_left _ hb

/-! ### Removals -/

lemma removeRegistered_eq {binding : TargetBinding} (hregistered : binding.target ∈ s.projects.registered)
    (hothers : facadeOwned binding.target.projectId →
      ∀ y ∈ s.projects.registered, y.projectId = binding.target.projectId → y = binding.target) (now : String) :
    ∃ projects : Projects, s.removeRegistered binding now [] [] = (.ok (), { s with projects := projects }) ∧
      ∀ y, y ∈ projects.registered ↔ y ∈ s.projects.registered ∧ y ≠ binding.target := by
  obtain ⟨project, hproject, hid, htarget⟩ := Projects.mem_registered.mp hregistered
  have hget : s.projects.get binding.target.projectId = some project := Projects.get_eq_some_iff.mpr ⟨hproject, hid.symm⟩
  have hsame : s.meanwhile [] = s := rfl
  unfold removeRegistered
  rw [hsame]
  dsimp only
  by_cases howned : facadeOwned binding.target.projectId = true
  · rw [if_pos howned, Projects.delete, hget]
    refine ⟨_, rfl, fun y => ?_⟩
    rw [Projects.mem_registered_remove]
    refine and_congr_right fun hy => not_congr ⟨hothers howned y hy, fun h => ?_⟩
    rw [h]
  · rw [if_neg howned, hget]
    dsimp only
    rw [hsame, Projects.replace, ← hid, hget]
    dsimp only
    rw [if_pos (by simp)]
    refine ⟨_, rfl, fun y => ?_⟩
    rw [Projects.mem_registered_write hproject hid]
    by_cases hy : y.projectId = project.projectId
    · have hlisted : y ∈ s.projects.registered ↔ y.registryTargetId ∈ project.targets.map (·.targetId) := by
        refine Projects.mem_registered.trans ⟨?_, fun htarget => ⟨project, hproject, hy, htarget⟩⟩
        rintro ⟨project', hproject', hid', htarget⟩
        rwa [Projects.eq_of_projectId hproject hproject' (hy.symm.trans hid')]
      have hother : y ≠ binding.target ↔ y.registryTargetId ≠ binding.target.registryTargetId :=
        not_congr ⟨fun h => by rw [h], fun h => RegistryTarget.ext (hy.trans hid.symm) h⟩
      rw [if_pos hy, hlisted, hother]
      simp only [mem_map, mem_filter, decide_eq_true_eq]
      constructor
      · rintro ⟨target, ⟨hmem, hne⟩, hsame⟩
        exact ⟨⟨target, hmem, hsame⟩, hsame ▸ hne⟩
      · rintro ⟨⟨target, hmem, hsame⟩, hne⟩
        exact ⟨target, ⟨hmem, hsame ▸ hne⟩, hsame⟩
    · rw [if_neg hy]
      refine (and_iff_left fun h => ?_).symm
      rw [h] at hy
      exact hy hid

lemma Sound.removed (h : s.Sound sha256) {binding : TargetBinding} (hmem : binding ∈ s.store.rows)
    (hshared : ∀ y ∈ s.projects.registered, y ≠ binding.target →
      y.registryTargetId = binding.target.registryTargetId → y ∈ s.store.bound) {projects : Projects}
    (hprojects : ∀ y, y ∈ projects.registered ↔ y ∈ s.projects.registered ∧ y ≠ binding.target) :
    Facade.Sound sha256 { s with projects := projects, store := s.store.delete binding.targetId } := by
  have hrows : ∀ b, b ∈ (s.store.delete binding.targetId).rows ↔ b ∈ s.store.rows ∧ b.targetId ≠ binding.targetId := by
    intro b
    rw [delete, mem_filter, decide_eq_true_eq]
  have hbound : ∀ y, y ∈ (s.store.delete binding.targetId).bound ↔ y ∈ s.store.bound ∧ y ≠ binding.target := by
    intro y
    rw [mem_bound, mem_bound]
    constructor
    · rintro ⟨b, hb, rfl⟩
      obtain ⟨hb, hne⟩ := (hrows b).mp hb
      refine ⟨⟨b, hb, rfl⟩, fun hsame => hne ?_⟩
      rw [eq_of_target hb hmem hsame]
    · rintro ⟨⟨b, hb, rfl⟩, hne⟩
      refine ⟨b, (hrows b).mpr ⟨hb, fun hsame => hne ?_⟩, rfl⟩
      rw [eq_of_targetId hb hmem hsame]
  refine ⟨⟨fun x hx => ?_, fun x hx y hy => ?_, fun x hx hfree e he => ?_⟩, h.stable, fun b hb => ?_⟩
  · obtain ⟨hx, hne⟩ := (hbound x).mp hx
    exact (hprojects x).mpr ⟨h.clear.kept x hx, hne⟩
  · exact h.clear.hashes x ((hprojects x).mp hx).1 y ((hprojects y).mp hy).1
  · obtain ⟨hx, hne⟩ := (hprojects x).mp hx
    have hfree' : x ∉ s.store.bound := fun hmem' => hfree ((hbound x).mpr ⟨hmem', hne⟩)
    obtain ⟨hhash, hregistry⟩ := h.clear.ids x hx hfree' e he
    refine ⟨hhash, fun hid => (hregistry hid).imp_right fun ⟨hregistered, hsame⟩ => ⟨(hprojects e.2).mpr ⟨hregistered, ?_⟩, hsame⟩⟩
    intro hremoved
    exact hfree' (hshared x hx hne (hsame.symm.trans (congrArg registryTargetId hremoved)))
  · exact h.recorded b ((hrows b).mp hb).1

lemma Sound.deleteTarget (h : s.Sound sha256) {targetId now : String} {active : List RegistryTarget}
    {before between : List RegistryChange} (hgood : s.Undisturbed sha256 (.deleteTarget targetId active now before between)) :
    (s.deleteTarget sha256 targetId active now before between).2.Sound sha256 ∧
      s.Steady sha256 (.deleteTarget targetId active now before between) := by
  obtain ⟨rfl, rfl, hnamed⟩ := hgood
  dsimp only [Facade.Steady]
  rcases h.bindingForAccess targetId now with ⟨binding, t, haccess, hextends, hmem, rfl, hnames⟩ | ⟨e, haccess⟩
  · obtain ⟨hshared, hothers⟩ := hnamed _ hnames
    by_cases hactive : binding.target ∈ active
    · have hresult : s.deleteTarget sha256 binding.targetId active now [] [] = (.error .deleteBlocked, t) := by
        unfold Facade.deleteTarget
        rw [haccess]
        exact if_pos hactive
      rw [hresult]
      refine ⟨hextends.sound, ⟨?_, fun _ _ => ⟨hextends.projects, hextends.rows⟩⟩, fun b hb _ => hextends.rows b hb⟩
      rintro ⟨⟩
    · have hbound : binding.target ∈ t.store.bound := mem_bound.mpr ⟨binding, hmem, rfl⟩
      have hregistered := hextends.sound.clear.kept _ hbound
      rw [← hextends.projects] at hshared hothers
      have hshared' : ∀ y ∈ t.projects.registered, y ≠ binding.target →
          y.registryTargetId = binding.target.registryTargetId → y ∈ t.store.bound := by
        intro y hy hne hsame
        obtain ⟨b, hb, rfl⟩ := mem_bound.mp (hshared y hy hne hsame)
        exact mem_bound.mpr ⟨b, hextends.rows b hb, rfl⟩
      obtain ⟨projects, hremoved, hprojects⟩ :=
        removeRegistered_eq (s := { t with store := t.store.delete binding.targetId }) hregistered hothers now
      have hresult : s.deleteTarget sha256 binding.targetId active now [] [] =
          (.ok (), { t with projects := projects, store := t.store.delete binding.targetId }) := by
        unfold Facade.deleteTarget
        rw [haccess]
        dsimp only
        rw [if_neg hactive, hremoved]
      rw [hresult]
      refine ⟨hextends.sound.removed hmem hshared' hprojects, ⟨fun _ => ⟨_, hnames, fun hmem' => ?_, fun b hb => ?_⟩, ?_⟩,
        fun b hb hne => ?_⟩
      · exact ((hprojects _).mp hmem').2 rfl
      · exact of_decide_eq_true (mem_filter.mp hb).2
      · rintro e ⟨⟩
      · exact mem_filter.mpr ⟨hextends.rows b hb, decide_eq_true hne⟩
  · have hresult : s.deleteTarget sha256 targetId active now [] [] = (.error e, s) := by
      unfold Facade.deleteTarget
      rw [haccess]
    rw [hresult]
    refine ⟨h, ⟨?_, fun _ _ => ⟨rfl, fun _ hb => hb⟩⟩, fun _ hb _ => hb⟩
    rintro ⟨⟩

/-! ### Runs -/

lemma Sound.step (h : s.Sound sha256) {move : FacadeMove} (hgood : s.Undisturbed sha256 move) :
    (s.step sha256 move).Sound sha256 ∧ s.Steady sha256 move := by
  cases move with
  | change change => exact ⟨⟨hgood, h.stable, h.recorded⟩, fun _ hb => hb⟩
  | listTargets now =>
    obtain ⟨views, t, ht, hextends⟩ := h.listTargets now
    have hstep : s.step sha256 (.listTargets now) = t := congrArg Prod.snd ht
    refine ⟨hstep ▸ hextends.sound, fun b hb => ?_⟩
    rw [hstep]
    exact hextends.rows b hb
  | getTarget targetId now =>
    have hextends := h.getTarget targetId now
    exact ⟨hextends.sound, hextends.rows⟩
  | createTarget create projectHex targetHex now => exact h.createTarget hgood
  | deleteTarget targetId active now before between => exact h.deleteTarget hgood

lemma Sound.faithful (h : s.Sound sha256) : s.Faithful sha256 := by
  refine ⟨fun now => ?_, fun b hb b' hb' => ⟨fun hid => ?_, fun htarget => ?_⟩, h.stable, h.recorded⟩
  · obtain ⟨views, t, ht, -⟩ := h.listTargets now
    exact ⟨views, congrArg Prod.fst ht⟩
  · rw [eq_of_targetId hb hb' hid]
  · rw [eq_of_target hb hb' htarget]

end Facade

section
variable (sha256)

def facade : System Facade FacadeMove := ⟨{}, fun s move => some (s.step sha256 move)⟩

/-- Where nothing is disturbed, listing succeeds, ids stand for one target for good, and a removal is whole. -/
theorem reached_faithful (s : Facade) (hs : (facade sha256).Reached (fun s move => s.Undisturbed sha256 move) s) :
    s.Faithful sha256 ∧ ∀ move, s.Undisturbed sha256 move → s.Steady sha256 move := by
  have hsound : s.Sound sha256 := by
    refine hs.invariant ⟨⟨?_, ?_, ?_⟩, ?_, ?_⟩ ?_
    · rintro s move t h hgood ⟨⟩
      exact (h.step hgood).1
    · rintro x ⟨⟩
    · rintro x ⟨⟩
    · rintro x ⟨⟩
    · rintro e ⟨⟩
    · rintro b ⟨⟩
  exact ⟨hsound.faithful, fun move hgood => (hsound.step hgood).2⟩

end

def zerosHexdigest (_ : String) : String := "0000000000000000000000000000000000000000000000000000000000000000"

lemma length_zerosHexdigest (text : String) : (zerosHexdigest text).length = 64 := by
  unfold zerosHexdigest
  decide +kernel

lemma barless_zerosHexdigest (text : String) : '|' ∉ (zerosHexdigest text).toList := by
  unfold zerosHexdigest
  decide +kernel

def zeros : Sha256 := ⟨zerosHexdigest, length_zerosHexdigest, barless_zerosHexdigest⟩

def webProject (projectId : String) : Registration where
  projectId := projectId
  displayName := projectId
  localSourcePaths := []
  targets := [{ targetId := "web", host := "10.0.0.1", sshUser := "ops" }]
  services := []
  uniqueTargets := nodup_singleton _
  uniqueServices := nodup_nil

def shopListed : List FacadeMove := [.change (.create (webProject "shop") "t0"), .listTargets "t1"]

theorem shop_faithful : ∃ s, (facade zeros).runFrom {} shopListed = some s ∧
    s.store.rows.map TargetBinding.targetId = ["web"] ∧ s.Faithful zeros := by
  have hgood : Facade.Undisturbed zeros {} (.change (.create (webProject "shop") "t0")) := by
    have hregistered : ∀ x ∈ (Projects.empty.change (.create (webProject "shop") "t0")).registered, x = ⟨"shop", "web"⟩ :=
      fun x hx => mem_singleton.mp hx
    refine ⟨?_, fun x hx y hy hne => ?_, fun x hx hfree => ?_⟩
    · rintro x ⟨⟩
    · exact absurd ((hregistered x hx).trans (hregistered y hy).symm) hne
    · rintro e ⟨⟩
  have hcreated : (facade zeros).Reached (fun s move => s.Undisturbed zeros move) _ := .next _ .start hgood rfl
  have hlisted := hcreated.next (FacadeMove.listTargets "t1") trivial rfl
  exact ⟨_, rfl, rfl, (reached_faithful zeros _ hlisted).1⟩

/-- The binding of a project that is gone keeps its id from a new project, and no listing succeeds any more; and a
write to the registry in the middle of a removal leaves a target without its binding. -/
theorem orphan_blocks_listing : (∃ s, (facade zeros).runFrom {} (shopListed ++
      [.change (.delete "shop"), .change (.create (webProject "store") "t2")]) = some s ∧
      (s.listTargets zeros "t3").1 = .error .alreadyExists ∧ ¬ s.Faithful zeros) ∧
    ∃ s, (facade zeros).runFrom {} shopListed = some s ∧
      ¬ s.Steady zeros (.deleteTarget "web" [] "t3" [] [.replace (webProject "shop") "t2" none]) := by
  constructor
  · refine ⟨_, rfl, rfl, fun h => ?_⟩
    obtain ⟨views, hviews⟩ := h.listed "t3"
    cases hviews
  · refine ⟨_, rfl, fun h => ?_⟩
    obtain ⟨-, hrows⟩ := h.1.unchanged .versionConflict rfl
    cases hrows _ mem_cons_self

end IncidentLens.Targets
