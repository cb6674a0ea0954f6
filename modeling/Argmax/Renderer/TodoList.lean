import Argmax.Renderer.CanonicalTimeline

/-!
# The plan of an agent

`lib/todoList.ts`: the list of an agent's plan, folded out of `todo.updated` rows. A snapshot
replaces the list, and a merge writes its items onto it one after another. A row without an item
that can be read does nothing.
-/

namespace Argmax.Renderer.Todo

open Argmax.Lib Argmax.Providers Argmax.Persistence.Timeline

inductive TodoStatus where
  | pending
  | active
  | done
  | cancelled
  | removed
  deriving DecidableEq

structure TodoItem where
  id : Option String
  text : Option String
  status : TodoStatus
  deriving DecidableEq

structure TodoList where
  items : List TodoItem
  updatedAt : String
  doneCount : ℕ
  active : Option TodoItem

/-! ## The fold -/

/-- `STATUSES`. -/
def TodoStatus.ofString? : String → Option TodoStatus
  | "pending" => some .pending
  | "active" => some .active
  | "done" => some .done
  | "cancelled" => some .cancelled
  | "removed" => some .removed
  | _ => none

def readItem (raw : Json) : Option TodoItem :=
  if isObject raw then
    ((raw.get "status").bind Json.asStr).bind TodoStatus.ofString? |>.map fun status =>
      ⟨CanonicalTimeline.stringValue (raw.get "id"), CanonicalTimeline.stringValue (raw.get "text"),
        status⟩
  else none

def mergeItem (items : List TodoItem) (incoming : TodoItem) : List TodoItem :=
  if incoming.status = .removed then
    if incoming.id = none then items else items.filter (·.id != incoming.id)
  else if incoming.id = none then items ++ [incoming]
  else
    match items.findIdx? (·.id == incoming.id) with
    | none => items ++ [incoming]
    | some index =>
      items.set index { incoming with text := incoming.text.or (items[index]?.bind (·.text)) }

/-- What a row says about the plan. -/
structure Update where
  snapshot : Bool
  incoming : List TodoItem
  createdAt : String

/-- A row with an item that can be read. -/
def updateOf (event : TimelineEvent) : Option Update :=
  if event.type ≠ "todo.updated" || !isObject event.payload then none
  else
    let rawItems := ((event.payload.get "items").bind Json.asArray).getD []
    let incoming := rawItems.filterMap readItem
    if incoming = [] then none
    else some ⟨event.payload.get "mode" == some (.string "snapshot"), incoming, event.createdAt⟩

def applyUpdate (items : List TodoItem) (update : Update) : List TodoItem :=
  if update.snapshot then update.incoming.filter (·.status != .removed)
  else update.incoming.foldl mergeItem items

def foldTodoEvents (events : List TimelineEvent) : Option TodoList :=
  let folded := events.foldl (fun (state : List TodoItem × Option String) event =>
    match updateOf event with
    | none => state
    | some update => (applyUpdate state.1 update, some update.createdAt)) ([], none)
  match folded with
  | (_, none) | ([], _) => none
  | (items, some updatedAt) =>
    some ⟨items, updatedAt, items.countP (·.status == .done), items.find? (·.status == .active)⟩

/-- The items of a list, none without a list. -/
def itemsOf (list : Option TodoList) : List TodoItem := (list.map (·.items)).getD []

/-! ## What was written -/

/-- The last snapshot. -/
def lastSnapshot (updates : List Update) : List TodoItem :=
  (((updates.filter (·.snapshot)).getLast?).map (·.incoming)).getD []

/-- The items that were written by the last snapshot and since. -/
def latestWrites (updates : List Update) : List TodoItem :=
  updates.foldl (fun writes update =>
    if update.snapshot then update.incoming else writes ++ update.incoming) []

/-- The writes to an id since it was last removed, the newest first. -/
def standing (writes : List TodoItem) (id : String) : List TodoItem :=
  (writes.filter (·.id == some id)).reverse.takeWhile (·.status != .removed)

/-- The item that writes make: the latest, with the latest text. -/
def shown : List TodoItem → List TodoItem
  | [] => []
  | latest :: older => [{ latest with text := (latest :: older).findSome? (·.text) }]

/-- **What a list should be to its writes.** -/
structure Folds (writes items : List TodoItem) : Prop where
  /-- An id that was written, and not removed since, has one item with what was written last. -/
  numbered : ∀ id, items.filter (·.id == some id) = shown (standing writes id)
  /-- Items without an id are all there. -/
  plain : items.filter (·.id == none) =
    writes.filter fun item => item.id == none && item.status != .removed
  unique : (items.filterMap (·.id)).Nodup
  present : ∀ item ∈ items, item.status ≠ .removed

/-! ## Merging -/

section Merge

variable {writes items : List TodoItem} {incoming item : TodoItem} {id : String}

theorem standing_concat_of_ne (h : incoming.id ≠ some id) :
    standing (writes ++ [incoming]) id = standing writes id := by
  rw [standing, standing]
  simp [h]

theorem standing_concat_removed (hid : incoming.id = some id) (h : incoming.status = .removed) :
    standing (writes ++ [incoming]) id = [] := by
  rw [standing]
  simp [hid, h]

theorem standing_concat (hid : incoming.id = some id) (h : incoming.status ≠ .removed) :
    standing (writes ++ [incoming]) id = incoming :: standing writes id := by
  rw [standing, standing]
  simp [hid, h]

/-- The first item with an id. -/
theorem exists_place {index : ℕ} (h : items.findIdx? (·.id == some id) = some index) :
    ∃ front old back, items = front ++ old :: back ∧ index = front.length ∧
      old.id = some id ∧ ∀ item ∈ front, item.id ≠ some id := by
  have ⟨hlt, hold, hfirst⟩ := List.findIdx?_eq_some_iff_getElem.mp h
  refine ⟨items.take index, items[index], items.drop (index + 1), by simp,
    by rw [List.length_take_of_le (Nat.le_of_lt hlt)], by simpa using hold, fun item hitem hsame => ?_⟩
  obtain ⟨place, hplace, rfl⟩ := List.mem_iff_getElem.mp hitem
  rw [List.length_take] at hplace
  rw [List.getElem_take] at hsame
  exact hfirst place (by omega) (by simp [hsame])

/-- A write to an id that has an item. -/
theorem mergeItem_place {front back : List TodoItem} {old : TodoItem}
    (hid : incoming.id = some id) (hstays : incoming.status ≠ .removed)
    (hfront : ∀ item ∈ front, item.id ≠ some id) (hold : old.id = some id) :
    mergeItem (front ++ old :: back) incoming =
      front ++ { incoming with text := incoming.text.or old.text } :: back := by
  have hindex : (front ++ old :: back).findIdx? (·.id == some id) = some front.length := by
    rw [List.findIdx?_append, List.findIdx?_eq_none_iff.mpr (by simpa using hfront),
      List.findIdx?_cons, if_pos (by simp [hold])]
    simp
  rw [mergeItem, if_neg hstays, if_neg (by simp [hid]), hid, hindex]
  simp [← hid]

/-- A write to an id that has none. -/
theorem mergeItem_fresh (hstays : incoming.status ≠ .removed)
    (hfresh : incoming.id = none ∨ ∀ item ∈ items, item.id ≠ incoming.id) :
    mergeItem items incoming = items ++ [incoming] := by
  rw [mergeItem, if_neg hstays]
  split
  · rfl
  · rename_i hid
    have hnone : items.findIdx? (·.id == incoming.id) = none := by
      simpa using hfresh.resolve_left hid
    rw [hnone]

/-- A removal of what has no id removes nothing. -/
theorem mergeItem_removed (hgoes : incoming.status = .removed) :
    mergeItem items incoming =
      items.filter fun item => incoming.id == none || item.id != incoming.id := by
  rw [mergeItem, if_pos hgoes]
  by_cases hid : incoming.id = none
  · simp [hid]
  · have hid' : (incoming.id == none) = false := beq_eq_false_iff_ne.mpr hid
    rw [if_neg hid, hid']
    simp

/-- Whether an item is merged at the end or in place. -/
theorem fresh_or_place (items : List TodoItem) (incoming : TodoItem) :
    (incoming.id = none ∨ ∀ item ∈ items, item.id ≠ incoming.id) ∨
      ∃ id front old back, incoming.id = some id ∧ items = front ++ old :: back ∧
        old.id = some id ∧ ∀ item ∈ front, item.id ≠ some id := by
  cases hid : incoming.id with
  | none => exact .inl (.inl rfl)
  | some id =>
    cases hindex : items.findIdx? (·.id == some id) with
    | none =>
      exact .inl (.inr (by simpa using hindex))
    | some index =>
      have ⟨front, old, back, hsplit, _, hold, hfront⟩ := exists_place hindex
      exact .inr ⟨id, front, old, back, rfl, hsplit, hold, hfront⟩

/-- A write to another id. -/
theorem filter_mergeItem_of_ne (h : incoming.id ≠ some id) :
    (mergeItem items incoming).filter (·.id == some id) = items.filter (·.id == some id) := by
  by_cases hgoes : incoming.status = .removed
  · rw [mergeItem_removed hgoes, List.filter_filter]
    refine List.filter_congr fun item _ => ?_
    by_cases hsame : item.id = some id
    · simp [hsame, Ne.symm h]
    · simp [hsame]
  · rcases fresh_or_place items incoming with hfresh | ⟨own, front, old, back, hown, rfl, hold, hfront⟩
    · rw [mergeItem_fresh hgoes hfresh]
      simp [h]
    · have hne : some own ≠ some id := hown ▸ h
      rw [mergeItem_place hown hgoes hfront hold]
      have hnew : (incoming.id == some id) = false := by simpa using h
      have hold' : (old.id == some id) = false := by rw [hold]; simpa using hne
      simp [hnew, hold']

/-- A write to an id. -/
theorem filter_mergeItem {olds : List TodoItem} (hid : incoming.id = some id)
    (hstays : incoming.status ≠ .removed)
    (hitems : items.filter (·.id == some id) = shown olds) :
    (mergeItem items incoming).filter (·.id == some id) = shown (incoming :: olds) := by
  rcases fresh_or_place items incoming with hfresh | ⟨own, front, old, back, hown, rfl, hold, hfront⟩
  · have hnone : items.filter (·.id == some id) = [] := by
      rw [hid] at hfresh
      simpa using hfresh
    have holds : olds = [] := by
      rw [hnone] at hitems
      cases olds with
      | nil => rfl
      | cons latest older => cases hitems
    rw [mergeItem_fresh hstays hfresh, List.filter_append, hnone, holds, shown]
    obtain ⟨_, text, status⟩ := incoming
    cases hid
    cases text <;> simp
  · rw [hid, Option.some.injEq] at hown
    subst hown
    have hnone : front.filter (·.id == some id) = [] := by
      simpa using hfront
    rw [List.filter_append, hnone, List.filter_cons, if_pos (by simp [hold])] at hitems
    cases olds with
    | nil => cases hitems
    | cons latest older =>
      obtain ⟨hfirst, hrest⟩ := List.cons.inj hitems
      have htext : old.text = (latest :: older).findSome? (·.text) := by rw [hfirst]
      rw [mergeItem_place hid hstays hfront hold, List.filter_append, hnone, List.filter_cons,
        if_pos (by simp [hid]), hrest, shown, List.findSome?_cons, htext]
      cases incoming.text <;> rfl

/-- Items without an id are written at the end. -/
theorem filter_mergeItem_none :
    (mergeItem items incoming).filter (·.id == none) = items.filter (·.id == none) ++
      [incoming].filter fun item => item.id == none && item.status != .removed := by
  by_cases hgoes : incoming.status = .removed
  · rw [mergeItem_removed hgoes, List.filter_filter]
    have hfiltered : ∀ item ∈ items, (item.id == none &&
        (incoming.id == none || item.id != incoming.id)) = (item.id == none) := by
      intro item _
      cases item.id <;> cases incoming.id <;> simp
    rw [List.filter_congr hfiltered]
    simp [hgoes]
  · rcases fresh_or_place items incoming with hfresh | ⟨own, front, old, back, hown, rfl, hold, hfront⟩
    · rw [mergeItem_fresh hgoes hfresh]
      simp [List.filter_cons, hgoes]
    · rw [mergeItem_place hown hgoes hfront hold]
      simp [hown, hold]

theorem mem_mergeItem_status (h : ∀ item ∈ items, item.status ≠ .removed)
    (hitem : item ∈ mergeItem items incoming) : item.status ≠ .removed := by
  by_cases hgoes : incoming.status = .removed
  · rw [mergeItem_removed hgoes] at hitem
    exact h item (List.mem_filter.mp hitem).1
  · rcases fresh_or_place items incoming with hfresh | ⟨own, front, old, back, hown, rfl, hold, hfront⟩
    · rw [mergeItem_fresh hgoes hfresh, List.mem_append, List.mem_singleton] at hitem
      rcases hitem with hitem | rfl
      · exact h item hitem
      · exact hgoes
    · rw [mergeItem_place hown hgoes hfront hold, List.mem_append, List.mem_cons] at hitem
      rcases hitem with hitem | rfl | hitem
      · exact h item (List.mem_append_left _ hitem)
      · exact hgoes
      · exact h item (List.mem_append_right _ (List.mem_cons_of_mem _ hitem))

/-- Without items of an id twice, the ids are distinct. -/
theorem unique_of_numbered
    (h : ∀ id, items.filter (·.id == some id) = shown (standing writes id)) :
    (items.filterMap (·.id)).Nodup := by
  rw [List.nodup_iff_count_le_one]
  intro id
  have hcount : (items.filterMap (·.id)).count id = (items.filter (·.id == some id)).length := by
    rw [List.count_filterMap, List.countP_eq_length_filter]
  rw [hcount, h]
  cases standing writes id <;> simp [shown]

theorem folds_nil : Folds [] [] where
  numbered _ := rfl
  plain := rfl
  unique := List.nodup_nil
  present := by simp

/-- **Merging one item** keeps the latest of each id. -/
theorem Folds.mergeItem (h : Folds writes items) (incoming : TodoItem) :
    Folds (writes ++ [incoming]) (mergeItem items incoming) := by
  have hnumbered : ∀ id, (Todo.mergeItem items incoming).filter (·.id == some id) =
      shown (standing (writes ++ [incoming]) id) := by
    intro id
    by_cases hid : incoming.id = some id
    · by_cases hgoes : incoming.status = .removed
      · rw [standing_concat_removed hid hgoes, mergeItem_removed hgoes, shown]
        simp [hid]
      · rw [standing_concat hid hgoes]
        exact filter_mergeItem hid hgoes (h.numbered id)
    · rw [filter_mergeItem_of_ne hid, standing_concat_of_ne hid, h.numbered]
  refine ⟨hnumbered, ?_, unique_of_numbered hnumbered, fun item => mem_mergeItem_status h.present⟩
  rw [filter_mergeItem_none, h.plain, List.filter_append]

/-- **Merging keeps the latest of each id.** -/
theorem Folds.foldl_mergeItem (h : Folds writes items) (incoming : List TodoItem) :
    Folds (writes ++ incoming) (incoming.foldl Todo.mergeItem items) := by
  induction incoming generalizing writes items with
  | nil => simpa using h
  | cons item incoming ih =>
    have hrest := ih (h.mergeItem item)
    rwa [List.append_assoc] at hrest

/-- A snapshot with distinct ids is like its items merged one after another. -/
theorem foldl_mergeItem_of_distinct {incoming : List TodoItem}
    (hdistinct : (incoming.filterMap (·.id)).Nodup)
    (hfresh : ∀ item ∈ items, ∀ other ∈ incoming, item.id = none ∨ item.id ≠ other.id) :
    incoming.foldl mergeItem items = items ++ incoming.filter (·.status != .removed) := by
  induction incoming generalizing items with
  | nil => simp
  | cons first incoming ih =>
    have hrest : (incoming.filterMap (·.id)).Nodup :=
      hdistinct.sublist ((List.sublist_cons_self _ _).filterMap _)
    have hfirst : first.id = none ∨ ∀ item ∈ items, item.id ≠ first.id := by
      by_cases hnone : first.id = none
      · exact .inl hnone
      · refine .inr fun item hitem hsame => ?_
        rcases hfresh item hitem first List.mem_cons_self with hitem' | hne
        · exact hnone (hsame ▸ hitem')
        · exact hne hsame
    have hother : ∀ other ∈ incoming, first.id = none ∨ first.id ≠ other.id := by
      intro other hmem
      cases hid : first.id with
      | none => exact .inl rfl
      | some id =>
        rw [List.filterMap_cons_some hid, List.nodup_cons] at hdistinct
        exact .inr fun hsame => hdistinct.1 (List.mem_filterMap.mpr ⟨other, hmem, hsame.symm⟩)
    rw [List.foldl_cons]
    by_cases hgoes : first.status = .removed
    · have hall : mergeItem items first = items := by
        rw [mergeItem_removed hgoes, List.filter_eq_self]
        intro item hitem
        rcases hfirst with hnone | hne
        · simp [hnone]
        · simp [hne item hitem]
      rw [hall, ih hrest fun item hitem other hmem =>
        hfresh item hitem other (List.mem_cons_of_mem _ hmem)]
      simp [hgoes]
    · rw [mergeItem_fresh hgoes hfirst, ih hrest]
      · simp [hgoes]
      · intro item hitem other hmem
        rcases List.mem_append.mp hitem with hitem | hitem
        · exact hfresh item hitem other (List.mem_cons_of_mem _ hmem)
        · rw [List.mem_singleton.mp hitem]
          exact hother other hmem

end Merge

/-! ## The list -/

/-- What the rows make, while the last snapshot has distinct ids. -/
theorem folds_applyUpdate (updates : List Update)
    (hdistinct : ((lastSnapshot updates).filterMap (·.id)).Nodup) :
    Folds (latestWrites updates) (updates.foldl applyUpdate []) := by
  induction updates using List.reverseRecOn with
  | nil => exact folds_nil
  | append_singleton updates update ih =>
    rw [latestWrites, List.foldl_append, List.foldl_append, List.foldl_cons, List.foldl_cons,
      applyUpdate]
    rw [lastSnapshot] at hdistinct
    cases hsnapshot : update.snapshot with
    | true =>
      have hincoming : (update.incoming.filterMap (·.id)).Nodup := by
        simpa [hsnapshot] using hdistinct
      have hmerged := @foldl_mergeItem_of_distinct [] _ hincoming (by simp)
      rw [List.nil_append] at hmerged
      rw [← hmerged]
      simpa using folds_nil.foldl_mergeItem update.incoming
    | false =>
      refine (ih ?_).foldl_mergeItem update.incoming
      simpa [hsnapshot, lastSnapshot] using hdistinct

/-- The rows of a fold, one by one. -/
theorem foldTodoEvents_state (events : List TimelineEvent) (state : List TodoItem × Option String) :
    events.foldl (fun (state : List TodoItem × Option String) event =>
      match updateOf event with
      | none => state
      | some update => (applyUpdate state.1 update, some update.createdAt)) state =
        ((events.filterMap updateOf).foldl applyUpdate state.1,
          (((events.filterMap updateOf).getLast?).map (·.createdAt)).or state.2) := by
  induction events generalizing state with
  | nil => simp
  | cons event events ih =>
    rw [List.foldl_cons, ih, List.filterMap_cons]
    cases hupdate : updateOf event with
    | none => rfl
    | some update =>
      rw [List.getLast?_cons]
      cases (events.filterMap updateOf).getLast? <;> rfl

theorem itemsOf_foldTodoEvents (events : List TimelineEvent) :
    itemsOf (foldTodoEvents events) = (events.filterMap updateOf).foldl applyUpdate [] := by
  rw [foldTodoEvents, foldTodoEvents_state]
  split
  · rename_i items hstate
    have hnone : (events.filterMap updateOf) = [] := by
      have hlast := congrArg Prod.snd hstate
      simpa using hlast
    rw [hnone]
    rfl
  · rename_i hstate
    exact (congrArg Prod.fst hstate).symm
  · rename_i hstate
    exact (congrArg Prod.fst hstate).symm

/-- **The list is what was written last.** Where the last snapshot that can be read repeats no id,
the list has one item for each id that was written by it or since, and not removed after that,
with its latest status and text; every item without an id; and nothing else. -/
theorem todo_fold_latest (events : List TimelineEvent)
    (hdistinct : ((lastSnapshot (events.filterMap updateOf)).filterMap (·.id)).Nodup) :
    Folds (latestWrites (events.filterMap updateOf)) (itemsOf (foldTodoEvents events)) := by
  rw [itemsOf_foldTodoEvents]
  exact folds_applyUpdate _ hdistinct

/-! ## Rows -/

/-- A row of the plan. -/
def todoRow (mode : String) (items : List Json) : TimelineEvent :=
  ⟨"event", "session", "todo.updated", "todo",
    .object [("mode", .string mode), ("items", .array items)], "2026-01-01T00:00:00.000Z", none⟩

def itemJson (id text status : String) : Json :=
  .object [("id", .string id), ("text", .string text), ("status", .string status)]

theorem todo_fold_latest_snapshot :
    let events := [todoRow "merge" [itemJson "1" "Old" "done"],
      todoRow "snapshot" [itemJson "1" "Plan" "pending", itemJson "2" "Write" "pending"],
      todoRow "merge" [itemJson "1" "" "active", itemJson "2" "" "removed"]]
    Folds (latestWrites (events.filterMap updateOf)) (itemsOf (foldTodoEvents events)) :=
  todo_fold_latest _ (by decide)

/-- **A snapshot without items does not clear the list**, one that repeats an id puts both items on
it, and a removed id that comes back has lost its text. -/
theorem empty_snapshot_ignored :
    (¬∀ (before : List TimelineEvent) (items : List Json) (after : List TimelineEvent),
      itemsOf (foldTodoEvents (before ++ todoRow "snapshot" items :: after)) =
        itemsOf (foldTodoEvents (todoRow "snapshot" items :: after))) ∧
      (¬∀ events, ((itemsOf (foldTodoEvents events)).filterMap (·.id)).Nodup) ∧
        itemsOf (foldTodoEvents [todoRow "snapshot" [itemJson "1" "Plan" "pending"],
          todoRow "merge" [itemJson "1" "" "removed"], todoRow "merge" [itemJson "1" "" "active"]]) =
            [⟨some "1", none, .active⟩] := by
  refine ⟨fun h => ?_, fun h => ?_, by decide⟩
  · exact absurd (h [todoRow "snapshot" [itemJson "1" "Survives" "pending"]] [] []) (by decide)
  · exact absurd (h [todoRow "snapshot" [itemJson "1" "Plan" "pending",
      itemJson "1" "Write" "pending"]]) (by decide)

end Argmax.Renderer.Todo
