import Argmax.Renderer.SidebarChatTree

/-!
# The chat tree of the sidebar is a forest

The second loop visits every workspace that has a parent. What it has visited has a chain that
ends, because a walk that comes back to itself takes the parents of its cycle away, and no other
parent is taken. So the chains that the third loop follows end.
-/

namespace Argmax.Renderer.SidebarChatTree

open Argmax.Lib Relation StringMap

variable {workspaces : List WorkspaceSummary} {sessions : List SessionSummary}
  {detachedIds : List String}

/-! ## The launch parents -/

variable (workspaces sessions) in
/-- The chat of a workspace was launched from a workspace of the list. -/
structure Launched (childId parentId : String) : Prop where
  child : childId ∈ workspaces.map (·.id)
  launcher : launcher sessions childId = some parentId
  named : parentId ≠ ""
  parent : parentId ∈ workspaces.map (·.id)

variable {workspace : WorkspaceSummary}

theorem launchParent_eq_some {parentId : String} :
    launchParent workspaces sessions detachedIds workspace = some parentId ↔
      (workspace.pinned = false ∧ workspace.id ∉ detachedIds) ∧
        launcher sessions workspace.id = some parentId ∧ parentId ≠ "" ∧
          parentId ≠ workspace.id ∧ parentId ∈ workspaces.map (·.id) := by
  rw [launchParent]
  by_cases hfree : workspace.pinned || detachedIds.contains workspace.id
  · have hnot : ¬(workspace.pinned = false ∧ workspace.id ∉ detachedIds) := by
      intro h
      simp [h.1, h.2] at hfree
    simp [hnot]
  · rw [if_neg hfree]
    simp only [Bool.or_eq_true, List.contains_iff_mem, not_or] at hfree
    simp [hfree.1, hfree.2, and_assoc]

/-- What a loop over the workspaces sets, where their ids are distinct. -/
theorem get_foldl_set (f : WorkspaceSummary → Option String) (map : StringMap String)
    (hnodup : (workspaces.map (·.id)).Nodup) (id : String) :
    get (workspaces.foldl (fun map workspace =>
      match f workspace with
      | some value => map.set workspace.id value
      | none => map) map) id =
        ((workspaces.find? (·.id == id)).bind f).or (get map id) := by
  induction workspaces generalizing map with
  | nil => simp
  | cons workspace workspaces ih =>
    have ⟨hfresh, hrest⟩ := List.nodup_cons.mp hnodup
    rw [List.foldl_cons, ih _ hrest, List.find?_cons]
    by_cases hid : workspace.id = id
    · have hnone : workspaces.find? (·.id == id) = none := by
        rw [List.find?_eq_none]
        intro other hother hsame
        apply hfresh
        have hsame : other.id = workspace.id := (beq_iff_eq.mp hsame).trans hid.symm
        exact List.mem_map.mpr ⟨other, hother, hsame⟩
      rw [hnone]
      cases hvalue : f workspace <;> simp [hid, hvalue]
    · have hother : (workspace.id == id) = false := by simpa using hid
      rw [hother]
      cases hvalue : f workspace <;> simp [hid]

theorem get_launchParents (hnodup : (workspaces.map (·.id)).Nodup) (id : String) :
    (launchParents workspaces sessions detachedIds).get id =
      (workspaces.find? (·.id == id)).bind (launchParent workspaces sessions detachedIds) := by
  have hset := get_foldl_set (launchParent workspaces sessions detachedIds) .empty hnodup id
  rw [get_empty, Option.or_none] at hset
  exact hset

theorem get_launchParents_of_mem (hnodup : (workspaces.map (·.id)).Nodup)
    (hmem : workspace ∈ workspaces) :
    (launchParents workspaces sessions detachedIds).get workspace.id =
      launchParent workspaces sessions detachedIds workspace := by
  have hfound : workspaces.find? (·.id == workspace.id) = some workspace := by
    cases hfind : workspaces.find? (·.id == workspace.id) with
    | none => simpa using List.find?_eq_none.mp hfind workspace hmem
    | some found =>
      have hid : found.id = workspace.id := by simpa using List.find?_some hfind
      rw [List.inj_on_of_nodup_map hnodup (List.mem_of_find?_eq_some hfind) hmem hid]
  rw [get_launchParents hnodup, hfound, Option.bind_some]

theorem launched_of_get (hnodup : (workspaces.map (·.id)).Nodup) {id parentId : String}
    (h : (launchParents workspaces sessions detachedIds).get id = some parentId) :
    Launched workspaces sessions id parentId := by
  rw [get_launchParents hnodup] at h
  obtain ⟨workspace, hfind, hparent⟩ := Option.bind_eq_some_iff.mp h
  have hid : workspace.id = id := by simpa using List.find?_some hfind
  have ⟨_, hlauncher, hnamed, _, hmem⟩ := launchParent_eq_some.mp hparent
  subst hid
  exact ⟨List.mem_map_of_mem (List.mem_of_find?_eq_some hfind), hlauncher, hnamed, hmem⟩

/-! ## The second loop -/

section Cut

variable {parents : StringMap String} {fuel : ℕ} {cutting cutting' : Cutting} {id : String}

/-- **What the second loop keeps**: only parents on cycles are gone, and the chains of the ids that
it has visited end. -/
structure Cutting.Sound (parents : StringMap String) (cutting : Cutting) : Prop where
  kept : ∀ id, cutting.parents.get id = parents.get id ∨
    cutting.parents.get id = none ∧ OnCycle parents.get id
  grounded : ∀ id ∈ cutting.visited, Grounded cutting.parents.get id

/-- The loop is done with an id. -/
def Cutting.Done (cutting : Cutting) (id : String) : Prop :=
  id = "" ∨ cutting.parents.get id = none ∨ id ∈ cutting.visited

theorem parent_of_kept {parents parents' : StringMap String} {id parentId : String}
    (h : parents'.get id = parents.get id ∨ parents'.get id = none ∧ OnCycle parents.get id)
    (hparent : parents'.get id = some parentId) : parents.get id = some parentId := by
  rcases h with hsame | ⟨hnone, _⟩
  · rw [← hsame, hparent]
  · rw [hparent] at hnone
    cases hnone

theorem Cutting.Sound.sub (h : cutting.Sound parents) {id parentId : String}
    (hparent : cutting.parents.get id = some parentId) : parents.get id = some parentId :=
  parent_of_kept (h.kept id) hparent

/-- **One turn of the second loop.** -/
theorem Cutting.visit_sound (h : cutting.Sound parents)
    (hnamed : ∀ id parentId, parents.get id = some parentId → parentId ≠ "")
    (hvisit : cutting.visit fuel id = some cutting') :
    cutting'.Sound parents ∧ cutting'.Done id ∧ ∀ other, cutting.Done other → cutting'.Done other := by
  rw [Cutting.visit] at hvisit
  split at hvisit
  case isTrue hnone =>
    cases hvisit
    exact ⟨h, .inr (.inl hnone), fun _ hdone => hdone⟩
  case isFalse hsome =>
    obtain ⟨⟨path, cycle⟩, hclimb, rfl⟩ := Option.map_eq_some_iff.mp hvisit
    have ⟨hclimbed, _, hstart⟩ := climbed hclimb (by simp [Trail]) (by simp)
    have hcut : ∀ a, (cutting.parents.deleteAll (cycleOf path cycle)).get a =
        if a ∈ cycleOf path cycle then none else cutting.parents.get a := get_deleteAll _ _
    have ⟨hcycle, hpath⟩ := hclimbed.cut (fun a b hparent hstops => by
      rw [Cutting.stops, Bool.or_eq_true, beq_iff_eq, List.contains_iff_mem] at hstops
      rcases hstops with rfl | hvisited
      · exact absurd rfl (hnamed a "" (h.sub hparent))
      · exact h.grounded b hvisited) hcut
    have hsub : ∀ a b, (cutting.parents.deleteAll (cycleOf path cycle)).get a = some b →
        cutting.parents.get a = some b := by
      intro a b hb
      rw [hcut] at hb
      split at hb
      · cases hb
      · exact hb
    refine ⟨⟨fun a => ?_, fun a ha => ?_⟩, ?_, fun other hdone => ?_⟩
    · by_cases ha : a ∈ cycleOf path cycle
      · refine .inr ⟨by rw [hcut, if_pos ha], (hcycle a ha).mono fun _ _ => h.sub⟩
      · rw [hcut, if_neg ha]
        exact h.kept a
    · rcases List.mem_append.mp ha with hvisited | hmem
      · exact (h.grounded a hvisited).mono hsub
      · exact hpath a hmem
    · cases hstops : cutting.stops id with
      | false => exact .inr (.inr (List.mem_append_right _ (hstart id rfl hstops)))
      | true =>
        rw [Cutting.stops, Bool.or_eq_true, beq_iff_eq, List.contains_iff_mem] at hstops
        exact hstops.imp_right fun hvisited => .inr (List.mem_append_left _ hvisited)
    · rcases hdone with hempty | hnone | hvisited
      · exact .inl hempty
      · refine .inr (.inl ?_)
        rw [hcut, hnone, ite_self]
      · exact .inr (.inr (List.mem_append_left _ hvisited))

theorem Cutting.visit_isSome (h : cutting.Sound parents) {keys : List String}
    (hkeys : ∀ id, parents.get id ≠ none → id ∈ keys) (hfuel : keys.length < fuel) (id : String) :
    (cutting.visit fuel id).isSome := by
  rw [Cutting.visit]
  split
  · rfl
  · rw [Option.isSome_map]
    refine climb_isSome (fun a ha => hkeys a ?_) List.nodup_nil (by simp) (by simpa)
    obtain ⟨b, hb⟩ := Option.ne_none_iff_exists'.mp ha
    rw [h.sub hb]
    simp

/-- **The second loop.** -/
theorem cutting_fold (hnamed : ∀ id parentId, parents.get id = some parentId → parentId ≠ "")
    {keys : List String} (hkeys : ∀ id, parents.get id ≠ none → id ∈ keys)
    (hfuel : keys.length < fuel) (ids : List String) (h : cutting.Sound parents) :
    ∃ cutting', ids.foldlM (Cutting.visit fuel) cutting = some cutting' ∧
      cutting'.Sound parents ∧ (∀ id ∈ ids, cutting'.Done id) ∧
        ∀ other, cutting.Done other → cutting'.Done other := by
  induction ids generalizing cutting with
  | nil => exact ⟨cutting, rfl, h, by simp, fun _ hdone => hdone⟩
  | cons id ids ih =>
    obtain ⟨next, hnext⟩ := Option.isSome_iff_exists.mp (Cutting.visit_isSome h hkeys hfuel id)
    have ⟨hsound, hdone, hkept⟩ := Cutting.visit_sound h hnamed hnext
    have ⟨last, hlast, hlastSound, hall, hthen⟩ := ih hsound
    refine ⟨last, ?_, hlastSound, List.forall_mem_cons.mpr ⟨hthen id hdone, hall⟩,
      fun other hother => hthen other (hkept other hother)⟩
    rw [List.foldlM_cons, hnext]
    exact hlast

/-- **The second loop leaves chains that end**, and takes no parent but those on a cycle. -/
theorem cutCycles_spec (hnamed : ∀ id parentId, parents.get id = some parentId → parentId ≠ "")
    {keys : List String} (hkeys : ∀ id, parents.get id ≠ none → id ∈ keys)
    (hfuel : keys.length < fuel) :
    ∃ parents', cutCycles fuel parents = some parents' ∧ (∀ id, Grounded parents'.get id) ∧
      ∀ id, parents'.get id = parents.get id ∨ parents'.get id = none ∧ OnCycle parents.get id := by
  have hstart : Cutting.Sound parents ⟨parents, []⟩ := ⟨fun _ => .inl rfl, by simp⟩
  have ⟨last, hlast, hsound, hdone, _⟩ := cutting_fold hnamed hkeys hfuel parents.keys hstart
  refine ⟨last.parents, by rw [cutCycles, hlast]; rfl, ?_, hsound.kept⟩
  have hone : ∀ id, id ≠ "" → Grounded last.parents.get id := by
    intro id hne
    cases hparent : last.parents.get id with
    | none => exact grounded_of_none hparent
    | some parentId =>
      rcases hdone id (mem_keys.mpr (by simp [hsound.sub hparent])) with hempty | hnone | hvisited
      · exact absurd hempty hne
      · rw [hparent] at hnone
        cases hnone
      · exact hsound.grounded id hvisited
  intro id
  cases hparent : last.parents.get id with
  | none => exact grounded_of_none hparent
  | some parentId => exact grounded_of_parent hparent (hone _ (hnamed _ _ (hsound.sub hparent)))

end Cut

/-! ## The third loop -/

section Place

variable {parents : StringMap String} {fuel : ℕ} {placing placing' : Placing}

/-- The map names the end of the chain of an id. -/
def Rooted (parents roots : StringMap String) (id : String) : Prop :=
  ∃ root, roots.get id = some root ∧ ReflTransGen (Under parents.get) id root ∧
    parents.get root = none

/-- **One turn of the third loop.** -/
theorem Placing.place_spec (hnamed : ∀ id parentId, parents.get id = some parentId → parentId ≠ "")
    (h : placing.place fuel parents workspace = some placing') :
    (∀ parentId, (placing'.children.get parentId).getD [] =
      (placing.children.get parentId).getD [] ++
        if parents.get workspace.id = some parentId then [workspace] else []) ∧
      (∀ id, Rooted parents placing.roots id → Rooted parents placing'.roots id) ∧
      (parents.get workspace.id ≠ none → Rooted parents placing'.roots workspace.id) := by
  rw [Placing.place] at h
  cases hparent : parents.get workspace.id with
  | none =>
    rw [hparent] at h
    cases h
    exact ⟨by simp, fun _ hroot => hroot, fun hne => absurd rfl hne⟩
  | some parentId =>
    rw [hparent] at h
    dsimp only at h
    rw [if_neg (hnamed _ _ hparent)] at h
    obtain ⟨root, hroot, rfl⟩ := Option.map_eq_some_iff.mp h
    have ⟨hchain, hnone⟩ := rootOf_eq_some hroot
    have hnew : Rooted parents (placing.roots.set workspace.id root) workspace.id :=
      ⟨root, by simp, .head hparent hchain, hnone⟩
    refine ⟨fun other => ?_, fun id ⟨root', hroot', hrest⟩ => ?_, fun _ => hnew⟩
    · by_cases hother : parentId = other
      · subst hother
        simp
      · simp [hother]
    · by_cases hid : workspace.id = id
      · rw [← hid]
        exact hnew
      · exact ⟨root', by simp [hid, hroot'], hrest⟩

theorem Placing.place_isSome {keys : List String} (hkeys : ∀ id, parents.get id ≠ none → id ∈ keys)
    (hends : ∀ id, Grounded parents.get id) (hfuel : keys.length < fuel)
    (workspace : WorkspaceSummary) : (placing.place fuel parents workspace).isSome := by
  rw [Placing.place]
  split
  · rfl
  · split
    · rfl
    · rw [Option.isSome_map]
      exact rootOf_isSome hkeys (fun id => (hends id).not_onCycle) (Nat.le_of_lt hfuel) _

/-- **The third loop** files the workspaces under their parents, and follows their chains. -/
theorem placing_fold (hnamed : ∀ id parentId, parents.get id = some parentId → parentId ≠ "")
    {keys : List String} (hkeys : ∀ id, parents.get id ≠ none → id ∈ keys)
    (hends : ∀ id, Grounded parents.get id) (hfuel : keys.length < fuel) :
    ∃ placing', workspaces.foldlM (Placing.place fuel parents) placing = some placing' ∧
      (∀ parentId, (placing'.children.get parentId).getD [] =
        (placing.children.get parentId).getD [] ++
          workspaces.filter fun workspace => parents.get workspace.id == some parentId) ∧
      (∀ id, Rooted parents placing.roots id → Rooted parents placing'.roots id) ∧
      ∀ workspace ∈ workspaces, parents.get workspace.id ≠ none →
        Rooted parents placing'.roots workspace.id := by
  induction workspaces generalizing placing with
  | nil => exact ⟨placing, rfl, by simp, fun _ hroot => hroot, by simp⟩
  | cons workspace workspaces ih =>
    obtain ⟨next, hnext⟩ := Option.isSome_iff_exists.mp
      (@Placing.place_isSome _ _ placing _ hkeys hends hfuel workspace)
    have ⟨hchildren, hroots, hroot⟩ := Placing.place_spec hnamed hnext
    have ⟨last, hlast, hfiled, hkept, hall⟩ := @ih next
    refine ⟨last, by rw [List.foldlM_cons, hnext]; exact hlast, fun parentId => ?_,
      fun id hid => hkept id (hroots id hid),
      List.forall_mem_cons.mpr ⟨fun hne => hkept _ (hroot hne), hall⟩⟩
    rw [hfiled, hchildren]
    by_cases hparent : parents.get workspace.id = some parentId
    · simp [hparent]
    · simp [hparent]

end Place

/-- Every workspace is its own root at first. -/
theorem rooted_start {parents : StringMap String} (hmem : workspace ∈ workspaces)
    (hroot : parents.get workspace.id = none) :
    Rooted parents (workspaces.foldl (fun roots workspace =>
      roots.set workspace.id workspace.id) .empty) workspace.id := by
  have hget : ∀ (map : StringMap String), get map workspace.id = some workspace.id ∨
      workspace ∈ workspaces → get (workspaces.foldl (fun roots workspace =>
        roots.set workspace.id workspace.id) map) workspace.id = some workspace.id := by
    clear hmem
    induction workspaces with
    | nil => simp
    | cons first rest ih =>
      intro map h
      apply ih
      rw [get_set]
      by_cases hid : first.id = workspace.id
      · exact .inl (by rw [if_pos hid, hid])
      · rw [if_neg hid]
        refine h.imp_right fun hcons => (List.mem_cons.mp hcons).resolve_left ?_
        rintro rfl
        exact hid rfl
  exact ⟨_, hget _ (.inr hmem), .refl, hroot⟩

/-! ## The forest -/

variable (workspaces sessions detachedIds) in
/-- **What the tree should be.** -/
structure IsForest (nested : Bool) (tree : ChatTree) : Prop where
  acyclic : ∀ id, ¬OnCycle tree.parentByWorkspace.get id
  /-- A workspace without a parent is nobody's child. -/
  root : ∀ workspace ∈ workspaces, tree.parentByWorkspace.get workspace.id = none →
    ∀ row ∈ tree.childrenByWorkspace, workspace ∉ row.2
  /-- A workspace with a parent is listed once, and with that parent. -/
  child : ∀ workspace ∈ workspaces, ∀ parentId,
    tree.parentByWorkspace.get workspace.id = some parentId →
      ∃ children, tree.childrenByWorkspace.get parentId = some children ∧
        children.count workspace = 1 ∧
          ∀ row ∈ tree.childrenByWorkspace, workspace ∈ row.2 → row.1 = parentId
  /-- The children are workspaces of the list. -/
  listed : ∀ row ∈ tree.childrenByWorkspace, ∀ workspace ∈ row.2, workspace ∈ workspaces
  rooted : ∀ workspace ∈ workspaces, Rooted tree.parentByWorkspace tree.rootByWorkspace workspace.id
  /-- A parent launched the chat. -/
  launched : ∀ id parentId, tree.parentByWorkspace.get id = some parentId →
    Launched workspaces sessions id parentId
  free : ∀ workspace ∈ workspaces, workspace.pinned = true ∨ workspace.id ∈ detachedIds →
    tree.parentByWorkspace.get workspace.id = none
  /-- Only a cycle of launches takes a parent away. -/
  kept : nested = true → ∀ workspace ∈ workspaces, workspace.pinned = false →
    workspace.id ∉ detachedIds → ∀ parentId, Launched workspaces sessions workspace.id parentId →
      tree.parentByWorkspace.get workspace.id = some parentId ∨
        TransGen (Launched workspaces sessions) workspace.id workspace.id

theorem isForest_flat (nested : Bool) (hnested : nested = false) :
    IsForest workspaces sessions detachedIds nested ⟨.empty, workspaces.foldl
      (fun roots workspace => roots.set workspace.id workspace.id) .empty, .empty⟩ where
  acyclic id := (grounded_of_none rfl).not_onCycle
  root _ _ _ row hrow := absurd hrow (Table.not_mem_empty row)
  child _ _ _ hparent := by cases hparent
  listed row hrow := absurd hrow (Table.not_mem_empty row)
  rooted _ hmem := rooted_start hmem rfl
  launched _ _ hparent := by cases hparent
  free _ _ _ := rfl
  kept hyes := by
    rw [hnested] at hyes
    cases hyes

/-- The parents that are left and what the third loop makes of them are a forest. -/
theorem isForest_nested (hnodup : (workspaces.map (·.id)).Nodup) {parents : StringMap String}
    {placing : Placing} (hends : ∀ id, Grounded parents.get id)
    (hkept : ∀ id,
      parents.get id = (launchParents workspaces sessions detachedIds).get id ∨
        parents.get id = none ∧ OnCycle (launchParents workspaces sessions detachedIds).get id)
    (hchildren : ∀ parentId, (placing.children.get parentId).getD [] =
      workspaces.filter fun workspace => parents.get workspace.id == some parentId)
    (hrooted : ∀ workspace ∈ workspaces, Rooted parents placing.roots workspace.id) :
    IsForest workspaces sessions detachedIds true
      ⟨placing.children.mapValues fun children => sortWorkspaceGroup children [], placing.roots,
        parents⟩ := by
  have hsub := fun id parentId => @parent_of_kept _ _ id parentId (hkept id)
  have hrow : ∀ row ∈ placing.children.mapValues fun children => sortWorkspaceGroup children [],
      row.2.Perm (workspaces.filter fun workspace => parents.get workspace.id == some row.1) := by
    intro row hrow
    have hget := get_eq_some.mpr hrow
    rw [get_mapValues, Option.map_eq_some_iff] at hget
    obtain ⟨children, hget, hsort⟩ := hget
    have hfiled := hchildren row.1
    rw [hget] at hfiled
    rw [← hsort, ← hfiled]
    exact List.mergeSort_perm _ _
  have hmem : ∀ row ∈ placing.children.mapValues fun children => sortWorkspaceGroup children [],
      ∀ workspace ∈ row.2, workspace ∈ workspaces ∧ parents.get workspace.id = some row.1 := by
    intro row hin workspace hworkspace
    simpa using (hrow row hin).mem_iff.mp hworkspace
  refine ⟨fun id => (hends id).not_onCycle, fun workspace _ hnone row hin hworkspace => ?_,
    fun workspace hworkspace parentId hparent => ?_, fun row hin workspace hworkspace =>
      (hmem row hin workspace hworkspace).1, hrooted, fun id parentId hparent =>
        launched_of_get hnodup (hsub id parentId hparent), fun workspace hworkspace hfree => ?_,
          fun _ workspace hworkspace hpinned hdetached parentId hlaunched => ?_⟩
  · have hparent := (hmem row hin workspace hworkspace).2
    rw [hnone] at hparent
    cases hparent
  · have hfiled := hchildren parentId
    have hin : workspace ∈ workspaces.filter fun workspace =>
        parents.get workspace.id == some parentId := by
      simp [hworkspace, hparent]
    cases hget : placing.children.get parentId with
    | none =>
      rw [hget] at hfiled
      rw [← hfiled] at hin
      cases hin
    | some children =>
      have hsorted : get (placing.children.mapValues fun children =>
          sortWorkspaceGroup children []) parentId = some (sortWorkspaceGroup children []) := by
        rw [get_mapValues, hget, Option.map_some]
      refine ⟨_, hsorted, ?_, fun row hother hworkspace' => ?_⟩
      · have hdistinct : (workspaces.filter fun workspace =>
            parents.get workspace.id == some parentId).Nodup := (List.Nodup.of_map _ hnodup).filter _
        rw [(hrow _ (get_eq_some.mp hsorted)).count_eq, List.count_eq_one_of_mem hdistinct hin]
      · have hother := (hmem row hother workspace hworkspace').2
        rw [hparent, Option.some.injEq] at hother
        exact hother.symm
  · rcases Option.eq_none_or_eq_some (parents.get workspace.id) with hnone | ⟨parentId, hparent⟩
    · exact hnone
    · have hlaunch := hsub _ _ hparent
      rw [get_launchParents_of_mem hnodup hworkspace, launchParent_eq_some] at hlaunch
      rcases hfree with hpinned | hdetached
      · rw [hlaunch.1.1] at hpinned
        cases hpinned
      · exact absurd hdetached hlaunch.1.2
  · by_cases hself : parentId = workspace.id
    · subst hself
      exact .inr (.single hlaunched)
    · have hlaunch : (launchParents workspaces sessions detachedIds).get workspace.id =
          some parentId := by
        rw [get_launchParents_of_mem hnodup hworkspace, launchParent_eq_some]
        exact ⟨⟨hpinned, hdetached⟩, hlaunched.launcher, hlaunched.named, hself, hlaunched.parent⟩
      rcases hkept workspace.id with hsame | ⟨_, hcycle⟩
      · exact .inl (hsame.trans hlaunch)
      · exact .inr (TransGen.mono (fun _ _ => launched_of_get hnodup) _ _ hcycle)

/-- **The chat tree of the sidebar is a forest**: the loops end within as many steps as there are
workspaces, and what they build is a forest. -/
theorem sidebar_chat_tree_forest (workspaces : List WorkspaceSummary)
    (hnodup : (workspaces.map (·.id)).Nodup) (sessions : List SessionSummary)
    (detachedIds : List String) (nested : Bool) (fuel : ℕ) (hfuel : workspaces.length < fuel) :
    ∃ tree, buildSidebarChatTree workspaces sessions detachedIds fuel nested = some tree ∧
      IsForest workspaces sessions detachedIds nested tree := by
  cases nested with
  | false => exact ⟨_, rfl, isForest_flat false rfl⟩
  | true =>
    have hnamed : ∀ id parentId,
        (launchParents workspaces sessions detachedIds).get id = some parentId → parentId ≠ "" :=
      fun _ _ hparent => (launched_of_get hnodup hparent).named
    have hkeys : ∀ id, (launchParents workspaces sessions detachedIds).get id ≠ none →
        id ∈ workspaces.map (·.id) := by
      intro id hne
      obtain ⟨parentId, hparent⟩ := Option.ne_none_iff_exists'.mp hne
      exact (launched_of_get hnodup hparent).child
    have hlength : (workspaces.map (·.id)).length < fuel := by simpa using hfuel
    have ⟨parents, hcut, hends, hkept⟩ := cutCycles_spec hnamed hkeys hlength
    have hsub := fun id parentId => @parent_of_kept _ _ id parentId (hkept id)
    have ⟨placing, hplace, hchildren, hroots, hall⟩ := @placing_fold workspaces _ _
      ⟨.empty, workspaces.foldl (fun roots workspace =>
        roots.set workspace.id workspace.id) .empty⟩
      (fun id parentId hparent => hnamed id parentId (hsub id parentId hparent)) _
      (fun id hne => hkeys id (by
        obtain ⟨parentId, hparent⟩ := Option.ne_none_iff_exists'.mp hne
        simp [hsub id parentId hparent])) hends hlength
    refine ⟨⟨placing.children.mapValues fun children => sortWorkspaceGroup children [],
      placing.roots, parents⟩, ?_, isForest_nested hnodup hends hkept hchildren
        fun workspace hworkspace => ?_⟩
    · simp [buildSidebarChatTree, hcut, placeWorkspaces, hplace]
    · by_cases hroot : parents.get workspace.id = none
      · exact hroots _ (rooted_start hworkspace hroot)
      · exact hall workspace hworkspace hroot

/-- Two chats that launched each other, and a third that one of them launched. -/
def cyclicWorkspaces : List WorkspaceSummary :=
  [⟨"a", false, "1"⟩, ⟨"b", false, "2"⟩, ⟨"c", false, "3"⟩]

def cyclicSessions : List SessionSummary :=
  [⟨"sa", "a", some "sb", "1"⟩, ⟨"sb", "b", some "sa", "2"⟩, ⟨"sc", "c", some "sa", "3"⟩]

theorem sidebar_chat_tree_forest_cycle :
    ∃ tree, buildSidebarChatTree cyclicWorkspaces cyclicSessions [] 4 true = some tree ∧
      IsForest cyclicWorkspaces cyclicSessions [] true tree :=
  sidebar_chat_tree_forest cyclicWorkspaces (by decide) cyclicSessions [] true 4 (by decide)

example : (buildSidebarChatTree cyclicWorkspaces cyclicSessions [] 4 true).map
    (fun tree => tree.parentByWorkspace.rows) = some [("c", "a")] := by
  rfl

end Argmax.Renderer.SidebarChatTree
