import Argmax.Persistence.ChangeFeed

/-!
# A client that drains the feed holds what the database holds

What the client of a session lacks is always named by a change its cursor has not
passed: a mutation that touches a row it tracks records such a change, a page brings
the entities of exactly the changes its cursor moves over, and a change that was
pruned before the client read it forces a reset. At the head of the feed nothing is
left to be named.
-/

namespace Argmax.Persistence.ChangeFeed

open Argmax.Lib

/-- The row of an entity if the session owns it. -/
def view (db : Db) (sessionId : String) (entity : EntityKey) : Option FeedRow :=
  (db.rows.find? entity).filter fun row => row.sessionId == sessionId

variable {db : Db} {sessionId : String} {entity : EntityKey} {row : FeedRow} {kind : EntityKind}
  {included : List EntityKey} {cursor : ℤ} {s : State}

theorem view_eq_some :
    view db sessionId entity = some row ↔
      row ∈ db.rows ∧ row.entity = entity ∧ row.sessionId = sessionId := by
  simp [view, Option.filter_eq_some_iff, Table.find?_eq_some, and_assoc]

/-- The feed is in order, its numbers are drawn from the head, and a change that was
recorded is there unless the watermark of its session has passed it. -/
structure Db.WF (db : Db) : Prop where
  nonneg : 0 ≤ db.head
  sorted : db.changes.Pairwise fun a b => a.sequence < b.sequence
  drawn : ∀ change ∈ db.changes, change.sequence ≤ db.head
  logged : ∀ change ∈ db.log, change.sequence ≤ db.head
  kept : ∀ change ∈ db.log,
    change ∈ db.changes ∨ change.sequence ≤ db.prunedThrough change.sessionId

theorem Db.empty_wf : Db.empty.WF where
  nonneg := le_refl 0
  sorted := List.Pairwise.nil
  drawn := by simp [Db.empty]
  logged := by simp [Db.empty]
  kept := by simp [Db.empty]

/-! ## Pruning and recording -/

theorem le_foldr_max {α : Type*} (f : α → ℤ) (xs : List α) (z : ℤ) :
    z ≤ xs.foldr (fun x newest => max (f x) newest) z ∧
      ∀ x ∈ xs, f x ≤ xs.foldr (fun x newest => max (f x) newest) z := by
  induction xs with
  | nil => simp
  | cons x xs ih =>
    obtain ⟨hz, hxs⟩ := ih
    rw [List.foldr_cons]
    constructor
    · omega
    · intro y hy
      rcases List.mem_cons.mp hy with rfl | hy
      · exact le_max_left _ _
      · have hle := hxs y hy
        omega

/-- Pruning moves the watermark of a session past every change it takes from it. -/
theorem prune_wf (h : db.WF) (through : ℤ) : (prune db through).WF where
  nonneg := h.nonneg
  sorted := h.sorted.filter _
  drawn := fun change hchange => h.drawn change (List.mem_filter.mp hchange).1
  logged := h.logged
  kept := by
    intro change hlog
    have hwater := le_foldr_max Change.sequence
      ((db.changes.filter fun c => decide (c.sequence ≤ through)).filter
        fun c => c.sessionId == change.sessionId) (db.prunedThrough change.sessionId)
    rcases h.kept change hlog with hin | hpast
    · by_cases hle : change.sequence ≤ through
      · right
        apply hwater.2
        simp [hin, hle]
      · left
        apply List.mem_filter.mpr
        simp [hin]
        omega
    · right
      exact hpast.trans hwater.1

theorem recordChange_wf (h : db.WF) (sessionId : String) (entity : EntityKey) :
    (recordChange db sessionId entity).WF := by
  have happend : Db.WF
      { db with
        head := db.head + 1
        changes := db.changes ++ [⟨db.head + 1, sessionId, entity⟩]
        log := db.log ++ [⟨db.head + 1, sessionId, entity⟩] } := by
    constructor
    · have hnonneg := h.nonneg
      dsimp only
      omega
    · apply List.pairwise_append.mpr
      refine ⟨h.sorted, List.pairwise_singleton _ _, ?_⟩
      intro old hold new hnew
      have hle := h.drawn old hold
      rw [List.mem_singleton.mp hnew]
      dsimp only
      omega
    · intro change hchange
      dsimp only at hchange ⊢
      rcases List.mem_append.mp hchange with hold | hnew
      · have hle := h.drawn change hold
        omega
      · rw [List.mem_singleton.mp hnew]
    · intro change hchange
      dsimp only at hchange ⊢
      rcases List.mem_append.mp hchange with hold | hnew
      · have hle := h.logged change hold
        omega
      · rw [List.mem_singleton.mp hnew]
    · intro change hchange
      rcases List.mem_append.mp hchange with hold | hnew
      · exact (h.kept change hold).imp_left (List.mem_append_left _)
      · exact .inl (List.mem_append_right _ hnew)
  rw [recordChange]
  split
  · exact prune_wf happend _
  · exact happend

/-- The rest of the database is what the rows are not part of. -/
theorem Db.WF.with_rows (h : db.WF) (rows : EntityTable) : Db.WF { db with rows := rows } :=
  ⟨h.nonneg, h.sorted, h.drawn, h.logged, h.kept⟩

@[simp] theorem rows_recordChange (db : Db) (sessionId : String) (entity : EntityKey) :
    (recordChange db sessionId entity).rows = db.rows := by
  rw [recordChange]
  split <;> rfl

@[simp] theorem head_recordChange (db : Db) (sessionId : String) (entity : EntityKey) :
    (recordChange db sessionId entity).head = db.head + 1 := by
  rw [recordChange]
  split <;> rfl

@[simp] theorem log_recordChange (db : Db) (sessionId : String) (entity : EntityKey) :
    (recordChange db sessionId entity).log = db.log ++ [⟨db.head + 1, sessionId, entity⟩] := by
  rw [recordChange]
  split <;> rfl

/-! ## What a mutation records -/

/-- The feed of the second database is that of the first with changes appended beyond
its head. -/
structure Extends (db db' : Db) (new : List Change) : Prop where
  wf : db'.WF
  log : db'.log = db.log ++ new
  head : db.head ≤ db'.head
  fresh : ∀ change ∈ new, db.head < change.sequence

theorem Extends.refl (h : db.WF) : Extends db db [] where
  wf := h
  log := (List.append_nil _).symm
  head := le_refl _
  fresh := by simp

theorem Extends.trans {db' db'' : Db} {new new' : List Change} (h : Extends db db' new)
    (h' : Extends db' db'' new') : Extends db db'' (new ++ new') where
  wf := h'.wf
  log := by rw [h'.log, h.log, List.append_assoc]
  head := h.head.trans h'.head
  fresh := by
    intro change hchange
    rcases List.mem_append.mp hchange with hnew | hnew
    · exact h.fresh change hnew
    · exact lt_of_le_of_lt h.head (h'.fresh change hnew)

theorem recordChange_extends (h : db.WF) (rows : EntityTable) (sessionId : String)
    (entity : EntityKey) : Extends db (recordChange { db with rows := rows } sessionId entity)
      [⟨db.head + 1, sessionId, entity⟩] where
  wf := recordChange_wf (h.with_rows rows) _ _
  log := log_recordChange _ _ _
  head := by
    rw [head_recordChange]
    dsimp only
    omega
  fresh := by
    intro change hchange
    rw [List.mem_singleton.mp hchange]
    dsimp only
    omega

/-- A mutation names every entity that the session sees differently after it. -/
structure Records (sessionId : String) (db db' : Db) (new : List Change) : Prop
    extends Extends db db' new where
  covers : ∀ entity, view db' sessionId entity ≠ view db sessionId entity →
    entity ∈ named sessionId new

theorem Records.refl (h : db.WF) (sessionId : String) : Records sessionId db db [] :=
  ⟨Extends.refl h, fun _ hne => absurd rfl hne⟩

theorem mem_named {changes : List Change} :
    entity ∈ named sessionId changes ↔
      ∃ change ∈ changes, change.sessionId = sessionId ∧ change.entity = entity := by
  simp [named, and_assoc]

/-- Of a row that another session owns the session sees nothing. -/
theorem filter_owner (h : row.sessionId ≠ sessionId) :
    (some row).filter (fun r => r.sessionId == sessionId) = none := by
  simp [Option.filter, h]

theorem insertRow_records (h : db.WF) (sessionId id owner : String) (body : Body)
    (createdAt : String) :
    ∃ new, Records sessionId db (insertRow db id owner body createdAt) new := by
  rw [insertRow]
  generalize hrow : (⟨nextRowid db body.kind, id, owner, body, createdAt⟩ : FeedRow) = row
  have howner : row.sessionId = owner := by rw [← hrow]
  split
  · rename_i rows hinsert
    refine ⟨_, recordChange_extends h rows owner row.entity, ?_⟩
    intro entity hne
    rw [mem_named]
    refine ⟨_, List.mem_singleton_self _, ?_⟩
    obtain ⟨hfree, rfl⟩ := Table.insert?_eq_some.mp hinsert
    simp only [view, rows_recordChange, Table.find?_push] at hne
    by_cases hentity : row.entity = entity
    · refine ⟨?_, hentity⟩
      by_contra hother
      apply hne
      rw [if_pos hentity, ← hentity, hfree, filter_owner (howner.trans_ne hother)]
      rfl
    · rw [if_neg hentity] at hne
      exact absurd rfl hne
  · exact ⟨[], Records.refl h sessionId⟩

theorem find?_delete_ne {t : EntityTable} {other : EntityKey} (h : other ≠ entity) :
    (t.delete fun r => r.entity == entity).find? other = t.find? other := by
  rw [Table.find?_delete]
  cases hrow : t.find? other with
  | none => rfl
  | some row =>
    have hkey : row.entity ≠ entity := by
      rw [Table.key_of_find? hrow]
      exact h
    simp [hkey]

theorem find?_delete_self (t : EntityTable) (entity : EntityKey) :
    (t.delete fun r => r.entity == entity).find? entity = none := by
  rw [Table.find?_eq_none]
  intro row hrow
  have hne := (Table.mem_delete.mp hrow).2
  simpa using hne

theorem deleteRow_records (h : db.WF) (sessionId : String) (entity : EntityKey) :
    ∃ new, Records sessionId db (deleteRow db entity) new := by
  rw [deleteRow]
  split
  · exact ⟨[], Records.refl h sessionId⟩
  · rename_i old hold
    refine ⟨_, recordChange_extends h _ old.sessionId entity, ?_⟩
    intro other hne
    rw [mem_named]
    refine ⟨_, List.mem_singleton_self _, ?_⟩
    simp only [view, rows_recordChange] at hne
    by_cases hother : other = entity
    · refine ⟨?_, hother.symm⟩
      by_contra howner
      apply hne
      rw [hother, find?_delete_self, hold, filter_owner howner]
      rfl
    · rw [find?_delete_ne hother] at hne
      exact absurd rfl hne

theorem updateRow_records (h : db.WF) (sessionId : String) (entity : EntityKey) (id owner : String)
    (body : Body) (createdAt : String) :
    ∃ new, Records sessionId db (updateRow db entity id owner body createdAt) new := by
  rw [updateRow]
  split
  · exact ⟨[], Records.refl h sessionId⟩
  rename_i old hold
  dsimp only
  generalize hrow : (⟨old.rowid, id, owner, body, createdAt⟩ : FeedRow) = row
  have howner : row.sessionId = owner := by rw [← hrow]
  have hid : row.entity.id = id := by
    rw [← hrow]
    rfl
  have hentity : old.entity = entity := Table.key_of_find? hold
  split
  · exact ⟨[], Records.refl h sessionId⟩
  rename_i hok
  rw [not_or, not_not, not_and_or, not_not] at hok
  obtain ⟨hkind, hfree⟩ := hok
  generalize hrows : (db.rows.delete fun r => r.entity == entity).put row = rows
  -- Another id, or another owner, and the first change names the entity that was there.
  have hmoved : row.entity ≠ entity → old.id ≠ id := by
    intro hne hsame
    apply hne
    have hids : row.entity.id = entity.id := by
      rw [hid, ← hsame, ← hentity]
      rfl
    calc row.entity = ⟨row.entity.kind, row.entity.id⟩ := rfl
      _ = entity := by rw [hkind, hids]
  have hcovers : ∀ other db',
      db'.rows = rows → view db' sessionId other ≠ view db sessionId other →
      (owner = sessionId ∧ row.entity = other) ∨
        ((old.sessionId ≠ owner ∨ old.id ≠ id) ∧ old.sessionId = sessionId ∧ entity = other) := by
    intro other db' hdb' hne
    rw [view, hdb', ← hrows, Table.find?_put, view] at hne
    by_cases hother : row.entity = other
    · by_cases hmine : owner = sessionId
      · exact .inl ⟨hmine, hother⟩
      · right
        rw [if_pos hother, filter_owner (howner.trans_ne hmine)] at hne
        by_cases hwas : other = entity
        · rw [hwas, hold] at hne
          have hsession : old.sessionId = sessionId := by
            by_contra hforeign
            exact hne (filter_owner hforeign).symm
          refine ⟨.inl ?_, hsession, hwas.symm⟩
          rw [hsession]
          exact fun heq => hmine heq.symm
        · exfalso
          apply hne
          rcases hfree with hsame | hnone
          · exact absurd (hother.symm.trans hsame) hwas
          · rw [hother, Option.not_isSome_iff_eq_none] at hnone
            rw [hnone]
            rfl
    · rw [if_neg hother] at hne
      right
      by_cases hwas : other = entity
      · rw [hwas, find?_delete_self, hold] at hne
        refine ⟨.inr (hmoved ?_), ?_, hwas.symm⟩
        · rw [← hwas]
          exact hother
        · by_contra hforeign
          rw [filter_owner hforeign] at hne
          exact hne rfl
      · rw [find?_delete_ne hwas] at hne
        exact absurd rfl hne
  split
  · have hfirst := recordChange_extends h rows old.sessionId entity
    have hsecond := recordChange_extends hfirst.wf
      (recordChange { db with rows := rows } old.sessionId entity).rows owner row.entity
    refine ⟨_, hfirst.trans hsecond, ?_⟩
    intro other hne
    rw [mem_named]
    rcases hcovers other _ (by simp) hne with hnew | ⟨_, hwas⟩
    · exact ⟨_, List.mem_append_right _ (List.mem_singleton_self _), hnew⟩
    · exact ⟨_, List.mem_append_left _ (List.mem_singleton_self _), hwas⟩
  · rename_i hstays
    refine ⟨_, recordChange_extends h rows owner row.entity, ?_⟩
    intro other hne
    rw [mem_named]
    rcases hcovers other _ (by simp) hne with hnew | ⟨hleft, _⟩
    · exact ⟨_, List.mem_singleton_self _, hnew⟩
    · exact absurd hleft hstays

/-! ## What a page brings -/

/-- **Filling a page consumes a prefix.** The page includes the entities of the consumed
candidates and no others, and the cursor stops at the last of them. -/
theorem fill_spec (sizes : Sizes) (current : EntityKey → Option FeedRow)
    (budget : Option ℕ) (filling : Filling) (changes : List Change) :
    ∃ taken rest, changes = taken ++ rest ∧
      (fill sizes current budget filling changes).consumed = filling.consumed + taken.length ∧
      (∀ entity, entity ∈ (fill sizes current budget filling changes).included ↔
        entity ∈ filling.included ∨ entity ∈ taken.map (·.entity)) ∧
      (fill sizes current budget filling changes).lastConsumedSequence =
        (taken.getLast?.map (·.sequence)).getD filling.lastConsumedSequence ∧
      (filling.included = [] → changes ≠ [] → taken ≠ []) := by
  induction changes generalizing filling with
  | nil => exact ⟨[], [], rfl, by simp [fill]⟩
  | cons change changes ih =>
    rw [fill]
    split
    · rename_i hover
      refine ⟨[], change :: changes, rfl, rfl, by simp, rfl, ?_⟩
      intro hempty _
      rw [hempty] at hover
      cases budget <;> simp at hover
    · generalize hnext : Filling.mk _ _ _ _ = next
      obtain ⟨taken, rest, hsplit, hconsumed, hincluded, hlast, _⟩ := ih next
      refine ⟨change :: taken, rest, by rw [hsplit]; rfl, ?_, ?_, ?_, by simp⟩
      · rw [hconsumed, ← hnext, List.length_cons]
        dsimp only
        omega
      · intro entity
        have hnext_included : entity ∈ next.included ↔
            entity ∈ filling.included ∨ entity = change.entity := by
          rw [← hnext]
          by_cases hhad : change.entity ∈ filling.included
          · rw [if_pos (List.contains_iff_mem.mpr hhad)]
            constructor
            · exact Or.inl
            · rintro (hin | rfl)
              · exact hin
              · exact hhad
          · rw [if_neg (by simpa using hhad), List.mem_append, List.mem_singleton]
        rw [hincluded, hnext_included, List.map_cons, List.mem_cons, or_assoc]
      · rw [hlast, ← hnext]
        cases taken with
        | nil => rfl
        | cons _ _ => rfl

theorem mem_sessionRows :
    row ∈ sessionRows db sessionId kind ↔
      row ∈ db.rows ∧ row.sessionId = sessionId ∧ row.entity.kind = kind := by
  simp [sessionRows, Table.mem_def]

theorem mem_of_mem_newest {n : ℕ} {rows : List FeedRow} (h : row ∈ newest n rows) : row ∈ rows :=
  List.mem_of_mem_drop h

theorem mem_listByIds {ids : List EntityKey} :
    row ∈ listByIds db sessionId kind ids ↔
      row ∈ db.rows ∧ row.sessionId = sessionId ∧ row.entity.kind = kind ∧ row.entity ∈ ids := by
  simp [listByIds, mem_sessionRows, and_assoc]

/-- An authoritative tail is made of rows that the session has. -/
theorem mem_listAuthoritativeTail (h : row ∈ (listAuthoritativeTail db sessionId).rows) :
    row ∈ db.rows ∧ row.sessionId = sessionId := by
  have hrows : row ∈ sessionRows db sessionId .event ∨
      row ∈ sessionRows db sessionId .rawOutput := by
    rcases List.mem_append.mp h with hevent | hraw
    · exact .inl (List.mem_filter.mp hevent).1
    · exact .inr (mem_of_mem_newest hraw)
  rcases hrows with hrow | hrow
  · exact ⟨(mem_sessionRows.mp hrow).1, (mem_sessionRows.mp hrow).2.1⟩
  · exact ⟨(mem_sessionRows.mp hrow).1, (mem_sessionRows.mp hrow).2.1⟩

/-- What a page that is not a reset says: of the entities it includes the row or the
absence, of others nothing. -/
structure Answers (db : Db) (sessionId : String) (included : List EntityKey) (page : Page) :
    Prop where
  rows : ∀ row, row ∈ page.rows ↔ row ∈ db.rows ∧ row.sessionId = sessionId ∧ row.entity ∈ included
  deleted : ∀ entity, entity ∈ page.deleted ↔ entity ∈ included ∧ view db sessionId entity = none

/-- The page moves the cursor over some of the changes it has not passed: they are
those of the entities it includes, and the others stay beyond it. -/
structure Advances (db : Db) (sessionId : String) (cursor : ℤ) (included : List EntityKey)
    (page : Page) : Prop where
  cursor : ∃ next, page.changeCursor = some next ∧ cursor ≤ next ∧ next ≤ db.head ∧
    (page.hasMore = false → next = db.head) ∧ (page.hasMore = true → cursor < next) ∧
    ∀ change ∈ db.changes, change.sessionId = sessionId → cursor < change.sequence →
      change.entity ∈ included ∨ next < change.sequence

theorem mem_deletedIds {id : String} {rows : List FeedRow}
    (hrows : ∀ row, row ∈ rows ↔ row ∈ db.rows ∧ row.sessionId = sessionId ∧
      row.entity.kind = kind ∧ row.entity ∈ included) :
    id ∈ deletedIds kind included rows ↔
      ⟨kind, id⟩ ∈ included ∧ view db sessionId ⟨kind, id⟩ = none := by
  have hnone : ⟨kind, id⟩ ∈ included →
      ((rows.any fun row => row.entity == ⟨kind, id⟩) = false ↔
        view db sessionId ⟨kind, id⟩ = none) := by
    intro hin
    rw [Option.eq_none_iff_forall_ne_some]
    simp only [List.any_eq_false, beq_iff_eq, hrows, ne_eq, view_eq_some]
    constructor
    · rintro hno row ⟨hrow, hentity, hsession⟩
      refine hno row ⟨hrow, hsession, ?_, ?_⟩ hentity
      · rw [hentity]
      · rw [hentity]
        exact hin
    · rintro hno row ⟨hrow, hsession, _, _⟩ hentity
      exact hno row ⟨hrow, hentity, hsession⟩
  simp only [deletedIds, List.mem_map, List.mem_filter, Bool.and_eq_true, beq_iff_eq,
    Bool.not_eq_true']
  constructor
  · rintro ⟨entity, ⟨hin, rfl, hany⟩, rfl⟩
    exact ⟨hin, (hnone hin).mp hany⟩
  · rintro ⟨hin, hview⟩
    exact ⟨⟨kind, id⟩, ⟨hin, rfl, (hnone hin).mpr hview⟩, rfl⟩

/-- The rows of a page are those of the entities it includes, once these are among the
candidates. -/
theorem mem_included_rows {ids : List EntityKey} (h : ∀ entity ∈ included, entity ∈ ids)
    (row : FeedRow) :
    row ∈ (listByIds db sessionId kind ids).filter (fun row => included.contains row.entity) ↔
      row ∈ db.rows ∧ row.sessionId = sessionId ∧ row.entity.kind = kind ∧
        row.entity ∈ included := by
  rw [List.mem_filter, mem_listByIds, List.contains_iff_mem]
  constructor
  · rintro ⟨⟨hrow, hsession, hkind, _⟩, hin⟩
    exact ⟨hrow, hsession, hkind, hin⟩
  · rintro ⟨hrow, hsession, hkind, hin⟩
    exact ⟨⟨hrow, hsession, hkind, h _ hin⟩, hin⟩

theorem answers_of_rows {page : Page}
    (hevents : ∀ row, row ∈ page.events ↔ row ∈ db.rows ∧ row.sessionId = sessionId ∧
      row.entity.kind = .event ∧ row.entity ∈ included)
    (hraw : ∀ row, row ∈ page.rawOutputs ↔ row ∈ db.rows ∧ row.sessionId = sessionId ∧
      row.entity.kind = .rawOutput ∧ row.entity ∈ included)
    (hdeleted : page.deletedEventIds = deletedIds .event included page.events)
    (hdeletedRaw : page.deletedRawOutputIds = deletedIds .rawOutput included page.rawOutputs) :
    Answers db sessionId included page where
  rows := by
    intro row
    rw [Page.rows, List.mem_append, hevents, hraw]
    cases row.entity.kind <;> simp
  deleted := by
    intro entity
    obtain ⟨kind, id⟩ := entity
    rw [Page.deleted, hdeleted, hdeletedRaw]
    cases kind <;> simp [mem_deletedIds hevents, mem_deletedIds hraw]

/-- The changes of a session after a cursor, in order. -/
theorem pending_changes (h : db.WF) (sessionId : String) (cursor : ℤ) :
    (db.changes.filter fun change => change.sessionId == sessionId &&
      decide (cursor < change.sequence) && decide (change.sequence ≤ db.head)).Pairwise
        (fun a b => a.sequence < b.sequence) ∧
    ∀ change, change ∈ (db.changes.filter fun change => change.sessionId == sessionId &&
      decide (cursor < change.sequence) && decide (change.sequence ≤ db.head)) ↔
        change ∈ db.changes ∧ change.sessionId = sessionId ∧ cursor < change.sequence := by
  refine ⟨h.sorted.filter _, ?_⟩
  intro change
  simp only [List.mem_filter, Bool.and_eq_true, beq_iff_eq, decide_eq_true_eq]
  constructor
  · rintro ⟨hin, ⟨hsession, hafter⟩, _⟩
    exact ⟨hin, hsession, hafter⟩
  · rintro ⟨hin, hsession, hafter⟩
    exact ⟨hin, ⟨hsession, hafter⟩, h.drawn change hin⟩

/-- Cut an ordered list of changes after a consumed part: what is not consumed is beyond
the last change that is. -/
theorem beyond_last {taken rest : List Change}
    (hsorted : (taken ++ rest).Pairwise fun a b => a.sequence < b.sequence)
    (hafter : ∀ change ∈ taken ++ rest, cursor < change.sequence) :
    ∀ change ∈ rest, (taken.getLast?.map (·.sequence)).getD cursor < change.sequence := by
  intro change hchange
  cases hlast : taken.getLast? with
  | none => exact hafter change (List.mem_append_right _ hchange)
  | some last =>
    have hmem : last ∈ taken := List.mem_of_getLast? hlast
    exact (List.pairwise_append.mp hsorted).2.2 last hmem change hchange

/-- **What `list_change_page` answers.** A reset, or a page over the changes after the
cursor, of which none is missing. -/
theorem listChangePage_spec (sizes : Sizes) (h : db.WF) (sessionId : String) (hcursor : 0 ≤ cursor)
    (budget : Option ℕ) :
    listChangePage sizes db sessionId cursor budget =
        .ok (listAuthoritativeTail db sessionId) ∨
      ∃ page included, listChangePage sizes db sessionId cursor budget = .ok page ∧
        page.resetRequired = false ∧ db.prunedThrough sessionId ≤ cursor ∧
        Answers db sessionId included page ∧
        Advances db sessionId cursor included page := by
  rw [listChangePage, if_neg (by omega)]
  split
  · exact .inl rfl
  right
  have hserved : cursor ≤ db.head ∧ db.prunedThrough sessionId ≤ cursor := by omega
  dsimp only
  obtain ⟨hsorted, hpending⟩ := pending_changes h sessionId cursor
  revert hsorted hpending
  generalize (db.changes.filter fun change => change.sessionId == sessionId &&
    decide (cursor < change.sequence) && decide (change.sequence ≤ db.head)) = pending
  intro hsorted hpending
  generalize hcandidates :
    (pending.take (sessionChangePageLimit + 1)).take sessionChangePageLimit = candidates
  generalize hspent : (if budget.isSome = true then _ else 0 : ℕ) = spent
  generalize hcurrent : (fun entity => List.find? (fun row : FeedRow => row.entity == entity) _)
    = current
  obtain ⟨taken, rest, hsplit, hconsumed, hincluded, hlast, hsome⟩ :=
    fill_spec sizes current budget ⟨[], 0, cursor, spent⟩ candidates
  revert hconsumed hincluded hlast
  generalize fill sizes current budget ⟨[], 0, cursor, spent⟩ candidates = filled
  intro hconsumed hincluded hlast
  have hmem : ∀ entity, entity ∈ filled.included ↔ entity ∈ taken.map (·.entity) := by
    simpa using hincluded
  have hids : ∀ entity ∈ filled.included, entity ∈ candidates.map (·.entity) := by
    intro entity hentity
    rw [hsplit, List.map_append]
    exact List.mem_append_left _ ((hmem entity).mp hentity)
  have htake : candidates = pending.take sessionChangePageLimit := by
    rw [← hcandidates, List.take_take, min_eq_left (Nat.le_succ _)]
  -- What the page leaves is the rest of the candidates and what is beyond the limit.
  obtain ⟨later, hlater⟩ : ∃ later, pending = taken ++ later := by
    refine ⟨rest ++ pending.drop sessionChangePageLimit, ?_⟩
    rw [← List.append_assoc, ← hsplit, htake, List.take_append_drop]
  have hlimit : taken.length ≤ sessionChangePageLimit := by
    have hle : candidates.length ≤ sessionChangePageLimit := by
      rw [htake]
      exact List.length_take_le _ _
    have hlen : candidates.length = taken.length + rest.length := by
      rw [hsplit, List.length_append]
    omega
  have hlength : pending.length = taken.length + later.length := by
    rw [hlater, List.length_append]
  have hmore : filled.consumed < (pending.take (sessionChangePageLimit + 1)).length ↔
      later ≠ [] := by
    rw [hconsumed, List.length_take, ← List.length_pos_iff]
    dsimp only
    omega
  have hafter : ∀ change ∈ taken ++ later, cursor < change.sequence := by
    intro change hchange
    rw [← hlater] at hchange
    exact ((hpending change).mp hchange).2.2
  have hbeyond := beyond_last (hlater ▸ hsorted) hafter
  rw [← hlast] at hbeyond
  have hstop : cursor ≤ filled.lastConsumedSequence ∧
      filled.lastConsumedSequence ≤ db.head ∧
      (taken ≠ [] → cursor < filled.lastConsumedSequence) := by
    rw [hlast]
    cases htaken : taken.getLast? with
    | none =>
      refine ⟨le_refl _, hserved.1, ?_⟩
      intro hne
      exact absurd (List.getLast?_eq_none_iff.mp htaken) hne
    | some last =>
      have hin : last ∈ taken ++ later :=
        List.mem_append_left _ (List.mem_of_getLast? htaken)
      have hlt := hafter last hin
      rw [← hlater, hpending] at hin
      exact ⟨hlt.le, h.drawn last hin.1, fun _ => hlt⟩
  refine ⟨_, filled.included, rfl, rfl, hserved.2, ?_, ⟨_, rfl, ?_⟩⟩
  · exact answers_of_rows (mem_included_rows hids) (mem_included_rows hids) rfl rfl
  by_cases hleft : later = []
  · rw [decide_eq_false (fun hlt => hmore.mp hlt hleft)]
    refine ⟨hserved.1, le_refl _, fun _ => rfl, fun hno => absurd hno (by simp), ?_⟩
    intro change hchange hsession hlt
    left
    have hin : change ∈ pending := (hpending change).mpr ⟨hchange, hsession, hlt⟩
    rw [hlater, hleft, List.append_nil] at hin
    exact (hmem _).mpr (List.mem_map_of_mem hin)
  · rw [decide_eq_true (hmore.mpr hleft)]
    refine ⟨hstop.1, hstop.2.1, fun hno => absurd hno (by simp), fun _ => ?_, ?_⟩
    · apply hstop.2.2
      apply hsome rfl
      intro hempty
      have hpendingLength : pending.length ≠ 0 := by
        have hpos := List.length_pos_iff.mpr hleft
        omega
      have hzero : (pending.take sessionChangePageLimit).length = 0 := by
        rw [← htake, hempty]
        rfl
      rw [List.length_take, sessionChangePageLimit] at hzero
      omega
    · intro change hchange hsession hlt
      have hin : change ∈ pending := (hpending change).mpr ⟨hchange, hsession, hlt⟩
      rw [hlater] at hin
      rcases List.mem_append.mp hin with hin | hin
      · exact .inl ((hmem _).mpr (List.mem_map_of_mem hin))
      · exact .inr (hbeyond change hin)

/-! ## The invariant -/

/-- What the client lacks of the entities it tracks is named beyond its cursor. -/
structure Tracks (sessionId : String) (s : State) : Prop where
  wf : s.db.WF
  unread : s.client.cursor = none → s.client.held = .empty ∧ s.recent = []
  cursor : ∀ cursor, s.client.cursor = some cursor → 0 ≤ cursor ∧ cursor ≤ s.db.head
  current : ∀ cursor, s.client.cursor = some cursor → ∀ entity ∈ s.recent,
    s.client.held.find? entity = view s.db sessionId entity ∨
      ∃ change ∈ s.db.log, change.sessionId = sessionId ∧ change.entity = entity ∧
        cursor < change.sequence
  untracked : ∀ entity, entity ∉ s.recent → s.client.held.find? entity = none

theorem start_tracks (sessionId : String) : Tracks sessionId start where
  wf := Db.empty_wf
  unread := fun _ => ⟨rfl, rfl⟩
  cursor := by simp [start]
  current := by simp [start]
  untracked := fun _ _ => rfl

/-- A mutation leaves the client as it was and names what it makes stale. -/
theorem mutate_tracks (h : Tracks sessionId s) {new : List Change}
    (hdb : Records sessionId s.db db new) : Tracks sessionId (mutate sessionId s db) := by
  have hnew : db.log.drop s.db.log.length = new := by
    rw [hdb.log, List.drop_left]
  rw [mutate, hnew]
  constructor
  · exact hdb.wf
  · intro hnone
    dsimp only at hnone ⊢
    obtain ⟨hheld, hrecent⟩ := h.unread hnone
    simp [hnone, hheld, hrecent]
  · intro cursor hcursor
    obtain ⟨hnonneg, hle⟩ := h.cursor cursor hcursor
    exact ⟨hnonneg, hle.trans hdb.head⟩
  · intro cursor hcursor entity hentity
    rw [hcursor] at hentity
    by_cases hnamed : entity ∈ named sessionId new
    · right
      obtain ⟨change, hchange, hsession, hname⟩ := mem_named.mp hnamed
      refine ⟨change, ?_, hsession, hname, ?_⟩
      · rw [hdb.log]
        exact List.mem_append_right _ hchange
      · have hle := (h.cursor cursor hcursor).2
        have hlt := hdb.fresh change hchange
        omega
    · have hsame : view db sessionId entity = view s.db sessionId entity := by
        by_contra hne
        exact hnamed (hdb.covers entity hne)
      have hold := (List.mem_append.mp hentity).resolve_left hnamed
      rcases h.current cursor hcursor entity hold with hheld | ⟨change, hchange, hrest⟩
      · exact .inl (hheld.trans hsame.symm)
      · refine .inr ⟨change, ?_, hrest⟩
        rw [hdb.log]
        exact List.mem_append_left _ hchange
  · intro entity hentity
    apply h.untracked
    intro hold
    exact hentity (List.mem_append_right _ hold)

theorem prune_tracks (h : Tracks sessionId s) (through : ℤ) :
    Tracks sessionId { s with db := prune s.db through } where
  wf := prune_wf h.wf through
  unread := h.unread
  cursor := h.cursor
  current := h.current
  untracked := h.untracked

/-- After a reset the client holds the tail and nothing else. -/
theorem held_reset (sessionId : String) (s : State) (entity : EntityKey) :
    (receive s (listAuthoritativeTail s.db sessionId)).client.held.find? entity =
      if entity ∈ (listAuthoritativeTail s.db sessionId).rows.map (·.entity)
        then s.db.rows.find? entity else none := by
  apply Table.find?_foldl_put
  intro row hrow
  exact (mem_listAuthoritativeTail hrow).1

/-- A reset leaves the client with rows the session has. -/
theorem reset_tracks (h : Tracks sessionId s) :
    Tracks sessionId (receive s (listAuthoritativeTail s.db sessionId)) := by
  have hheld := held_reset sessionId s
  constructor
  · exact h.wf
  · intro hnone
    cases hnone
  · intro cursor hcursor
    cases hcursor
    exact ⟨h.wf.nonneg, le_refl _⟩
  · intro cursor _ entity hentity
    have hsent : entity ∈ (listAuthoritativeTail s.db sessionId).rows.map (·.entity) := hentity
    left
    rw [hheld, if_pos hsent]
    obtain ⟨row, hrow, rfl⟩ := List.mem_map.mp hentity
    obtain ⟨hin, hsession⟩ := mem_listAuthoritativeTail hrow
    rw [Table.find?_of_mem hin]
    exact (view_eq_some.mpr ⟨hin, rfl, hsession⟩).symm
  · intro entity hentity
    have hsent : entity ∉ (listAuthoritativeTail s.db sessionId).rows.map (·.entity) := hentity
    rw [hheld, if_neg hsent]

/-- What a client holds after a page that is not a reset. -/
theorem held_apply (client : Client) {page : Page} (hreset : page.resetRequired = false)
    (h : Answers db sessionId included page) (entity : EntityKey) :
    (client.apply page).held.find? entity =
      if entity ∈ included then view db sessionId entity
      else client.held.find? entity := by
  have hrows : ∀ row ∈ page.rows, row ∈ db.rows := fun row hrow => ((h.rows row).mp hrow).1
  have hkeys : entity ∈ page.rows.map (·.entity) ↔
      entity ∈ included ∧ (view db sessionId entity).isSome := by
    rw [List.mem_map, Option.isSome_iff_exists]
    constructor
    · rintro ⟨row, hrow, rfl⟩
      obtain ⟨hin, hsession, hincluded⟩ := (h.rows row).mp hrow
      exact ⟨hincluded, row, view_eq_some.mpr ⟨hin, rfl, hsession⟩⟩
    · rintro ⟨hincluded, row, hview⟩
      obtain ⟨hin, rfl, hsession⟩ := view_eq_some.mp hview
      exact ⟨row, (h.rows row).mpr ⟨hin, hsession, hincluded⟩, rfl⟩
  rw [Client.apply, hreset]
  rw [if_neg Bool.false_ne_true, Table.find?_foldl_put hrows, Table.find?_delete]
  by_cases hincluded : entity ∈ included
  · rw [if_pos hincluded]
    cases hview : view db sessionId entity with
    | some row =>
      rw [if_pos (hkeys.mpr ⟨hincluded, by rw [hview]; rfl⟩)]
      obtain ⟨hin, rfl, _⟩ := view_eq_some.mp hview
      exact Table.find?_of_mem hin
    | none =>
      have hdeleted : entity ∈ page.deleted := (h.deleted entity).mpr ⟨hincluded, hview⟩
      have habsent : entity ∉ page.rows.map (·.entity) := by
        intro hin
        have hsome := (hkeys.mp hin).2
        rw [hview] at hsome
        cases hsome
      rw [if_neg habsent]
      rw [Option.filter_eq_none_iff]
      intro row hrow
      rw [Table.key_of_find? hrow]
      simp [hdeleted]
  · rw [if_neg hincluded, if_neg (fun hin => hincluded (hkeys.mp hin).1)]
    cases hrow : client.held.find? entity with
    | none => rfl
    | some row =>
      have hkept : row.entity ∉ page.deleted := by
        rw [Table.key_of_find? hrow]
        exact fun hin => hincluded ((h.deleted entity).mp hin).1
      simp [hkept]

/-- A page brings what the changes it moves over name; what the others name is still
beyond the cursor. -/
theorem page_tracks (h : Tracks sessionId s) (hcursor : s.client.cursor = some cursor) {page : Page}
    (hreset : page.resetRequired = false) (hkept : s.db.prunedThrough sessionId ≤ cursor)
    (hanswers : Answers s.db sessionId included page)
    (hadvances : Advances s.db sessionId cursor included page) :
    Tracks sessionId (receive s page) := by
  obtain ⟨next, hnext, hle, hhead, _, _, hmoved⟩ := hadvances.cursor
  have hsent : ∀ entity ∈ page.rows.map (·.entity), entity ∈ included := by
    intro entity hentity
    obtain ⟨row, hrow, rfl⟩ := List.mem_map.mp hentity
    exact ((hanswers.rows row).mp hrow).2.2
  have hheld := held_apply s.client hreset hanswers
  rw [receive, hreset]
  constructor
  · exact h.wf
  · intro hnone
    rw [Client.apply, hnext] at hnone
    cases hnone
  · intro stop hstop
    rw [Client.apply, hnext] at hstop
    cases hstop
    exact ⟨(h.cursor cursor hcursor).1.trans hle, hhead⟩
  · intro stop hstop entity hentity
    rw [Client.apply, hnext] at hstop
    cases hstop
    rw [hheld]
    by_cases hin : entity ∈ included
    · rw [if_pos hin]
      exact .inl rfl
    · rw [if_neg hin]
      have hold : entity ∈ s.recent :=
        (List.mem_append.mp hentity).resolve_left fun hsentNow => hin (hsent _ hsentNow)
      rcases h.current cursor hcursor entity hold with hcurrent | ⟨change, hchange, hrest⟩
      · exact .inl hcurrent
      · right
        obtain ⟨hsession, hname, hafter⟩ := hrest
        refine ⟨change, hchange, hsession, hname, ?_⟩
        have hstored : change ∈ s.db.changes := by
          rcases h.wf.kept change hchange with hstored | hpruned
          · exact hstored
          · rw [hsession] at hpruned
            omega
        rcases hmoved change hstored hsession hafter with hincluded | hbeyond
        · rw [hname] at hincluded
          exact absurd hincluded hin
        · exact hbeyond
  · intro entity hentity
    rw [if_neg Bool.false_ne_true, List.mem_append, not_or] at hentity
    rw [hheld]
    by_cases hin : entity ∈ included
    · rw [if_pos hin]
      by_contra hsome
      obtain ⟨row, hview⟩ := Option.ne_none_iff_exists'.mp hsome
      obtain ⟨hrow, rfl, hsession⟩ := view_eq_some.mp hview
      apply hentity.1
      exact List.mem_map_of_mem ((hanswers.rows row).mpr ⟨hrow, hsession, hin⟩)
    · rw [if_neg hin]
      exact h.untracked entity hentity.2

/-- A poll is always answered: with a reset or with a page. -/
theorem poll_spec (sizes : Sizes) (h : Tracks sessionId s) (budget : Option ℕ) :
    listSessionChangesSinceWithBudget sizes s.db sessionId s.client.cursor budget =
        .ok (listAuthoritativeTail s.db sessionId) ∨
      ∃ page cursor included, s.client.cursor = some cursor ∧
        listSessionChangesSinceWithBudget sizes s.db sessionId s.client.cursor budget = .ok page ∧
        page.resetRequired = false ∧ s.db.prunedThrough sessionId ≤ cursor ∧
        Answers s.db sessionId included page ∧
        Advances s.db sessionId cursor included page := by
  cases hcursor : s.client.cursor with
  | none => exact .inl rfl
  | some cursor =>
    have hnonneg := (h.cursor cursor hcursor).1
    rcases listChangePage_spec sizes h.wf sessionId hnonneg budget with hreset | hpage
    · exact .inl hreset
    · obtain ⟨page, included, hpage⟩ := hpage
      exact .inr ⟨page, cursor, included, rfl, hpage⟩

/-- **Every step keeps the invariant.** -/
theorem step_tracks (sizes : Sizes) (sessionId : String) (s : State) (action : Action)
    (h : Tracks sessionId s) : Tracks sessionId (step sizes sessionId s action) := by
  cases action with
  | insert id owner body createdAt =>
    obtain ⟨new, hnew⟩ := insertRow_records h.wf sessionId id owner body createdAt
    exact mutate_tracks h hnew
  | update entity id owner body createdAt =>
    obtain ⟨new, hnew⟩ := updateRow_records h.wf sessionId entity id owner body createdAt
    exact mutate_tracks h hnew
  | delete entity =>
    obtain ⟨new, hnew⟩ := deleteRow_records h.wf sessionId entity
    exact mutate_tracks h hnew
  | prune through => exact prune_tracks h through
  | poll budget =>
    rw [step]
    rcases poll_spec sizes h budget with hreset | hpage
    · rw [hreset]
      exact reset_tracks h
    · obtain ⟨page, cursor, included, hcursor, hanswer, hreset, hkept, hpage⟩ := hpage
      rw [hanswer]
      exact page_tracks h hcursor hreset hkept hpage.1 hpage.2

/-! ## Convergence -/

/-- What holds of a client that has drained the feed. -/
structure Converges (sizes : Sizes) (sessionId : String) (s : State) : Prop where
  /-- It holds the current version of every row it was sent, or that changed, since its
  last authoritative answer. -/
  current : s.client.cursor = some s.db.head →
    ∀ entity ∈ s.recent, s.client.held.find? entity = view s.db sessionId entity
  /-- Every row it holds is a row that the session has, as it is now. -/
  live : s.client.cursor = some s.db.head →
    ∀ row ∈ s.client.held, view s.db sessionId row.entity = some row
  /-- Every poll is answered, and the last page of a series takes it to the head. -/
  drains : ∀ budget, ∃ page,
    listSessionChangesSinceWithBudget sizes s.db sessionId s.client.cursor budget = .ok page ∧
    (page.hasMore = false → (s.client.apply page).cursor = some s.db.head)
  /-- Each page before the last one moves the cursor. -/
  progresses : ∀ budget page cursor next,
    listSessionChangesSinceWithBudget sizes s.db sessionId s.client.cursor budget =
      .ok page → page.hasMore = true → s.client.cursor = some cursor →
    (s.client.apply page).cursor = some next → cursor < next

theorem Tracks.converges (sizes : Sizes) (h : Tracks sessionId s) :
    Converges sizes sessionId s := by
  have hcurrent : s.client.cursor = some s.db.head →
      ∀ entity ∈ s.recent, s.client.held.find? entity = view s.db sessionId entity := by
    intro hdrained entity hentity
    rcases h.current _ hdrained entity hentity with hheld | ⟨change, hchange, _, _, hlt⟩
    · exact hheld
    · have hle := h.wf.logged change hchange
      omega
  constructor
  · exact hcurrent
  · intro hdrained row hrow
    have hfind := Table.find?_of_mem hrow
    by_cases hrecent : row.entity ∈ s.recent
    · rw [← hcurrent hdrained _ hrecent]
      exact hfind
    · rw [h.untracked _ hrecent] at hfind
      cases hfind
  · intro budget
    rcases poll_spec sizes h budget with hreset | hpage
    · exact ⟨_, hreset, fun _ => rfl⟩
    · obtain ⟨page, cursor, included, _, hanswer, _, _, _, hadvances⟩ := hpage
      obtain ⟨next, hnext, _, _, hlast, _⟩ := hadvances.cursor
      refine ⟨page, hanswer, ?_⟩
      intro hmore
      rw [Client.apply, hnext, hlast hmore]
  · intro budget page cursor next hanswer hmore hcursor hnext
    rcases poll_spec sizes h budget with hreset | hpage
    · rw [hreset] at hanswer
      cases hanswer
      cases hmore
    · obtain ⟨page', cursor', included, hcursor', hanswer', _, _, _, hadvances⟩ := hpage
      rw [hanswer'] at hanswer
      cases hanswer
      rw [hcursor'] at hcursor
      cases hcursor
      obtain ⟨next', hnext', _, _, _, hlt, _⟩ := hadvances.cursor
      rw [Client.apply, hnext'] at hnext
      cases hnext
      exact hlt hmore

/-- **A drained client is current.** Over every history of mutations, prunings and
polls, a client whose cursor is the head holds the current version of every row it was
sent or that changed since its last authoritative answer, and nothing that was
deleted. -/
theorem drained_client_converges (sizes : Sizes) (sessionId : String)
    (actions : List Action) :
    Converges sizes sessionId (run (step sizes sessionId) start actions) :=
  (run_invariant (step_tracks sizes sessionId) (start_tracks sessionId) actions).converges sizes

/-! ## What a reset forgets -/

/-- A raw output that a client with a cursor has not seen inserted before. -/
theorem insert_step (sizes : Sizes) (hcursor : s.client.cursor = some cursor) {id : String}
    (hfree : s.db.rows.find? ⟨.rawOutput, id⟩ = none) (stream content createdAt : String) :
    ∃ rows, s.db.rows.insert? ⟨nextRowid s.db .rawOutput, id, sessionId,
        .rawOutput stream content, createdAt⟩ = some rows ∧
      step sizes sessionId s (.insert id sessionId (.rawOutput stream content) createdAt) =
        { s with
          db := recordChange { s.db with rows := rows } sessionId ⟨.rawOutput, id⟩
          known := ⟨.rawOutput, id⟩ :: s.known
          recent := ⟨.rawOutput, id⟩ :: s.recent } := by
  obtain ⟨rows, hinsert⟩ : ∃ rows, s.db.rows.insert? ⟨nextRowid s.db .rawOutput, id,
      sessionId, .rawOutput stream content, createdAt⟩ = some rows :=
    ⟨_, Table.insert?_eq_some.mpr ⟨hfree, rfl⟩⟩
  rw [step, insertRow]
  dsimp only [Body.kind]
  rw [hinsert]
  rw [mutate, hcursor]
  simp [named, FeedRow.entity, Body.kind]

/-- Inserting raw outputs with new ids makes all of them known and current. -/
theorem insert_all (sizes : Sizes) (sessionId : String) (ids : List String)
    (hcursor : s.client.cursor = some cursor) (hnodup : ids.Nodup)
    (hfree : ∀ id ∈ ids, s.db.rows.find? ⟨.rawOutput, id⟩ = none) :
    let s' := run (step sizes sessionId) s
      (ids.map fun id => .insert id sessionId (.rawOutput "" "") "")
    s'.client = s.client ∧
      (∀ entity ∈ s.known, entity ∈ s'.known) ∧
      (s.recent = s.known → s'.recent = s'.known) ∧
      (∀ entity, (view s.db sessionId entity).isSome → (view s'.db sessionId entity).isSome) ∧
      ∀ id ∈ ids, ⟨.rawOutput, id⟩ ∈ s'.known ∧ (view s'.db sessionId ⟨.rawOutput, id⟩).isSome := by
  induction ids generalizing s with
  | nil => simp
  | cons id ids ih =>
    obtain ⟨hid, hnodup⟩ := List.nodup_cons.mp hnodup
    obtain ⟨hfreeId, hfreeIds⟩ := List.forall_mem_cons.mp hfree
    obtain ⟨rows, hinsert, hstep⟩ := insert_step sizes hcursor hfreeId "" "" ""
    rw [List.map_cons, run_cons, hstep]
    obtain ⟨_, hrows⟩ := Table.insert?_eq_some.mp hinsert
    have hfind : ∀ entity, rows.find? entity =
        if (⟨.rawOutput, id⟩ : EntityKey) = entity then
          some ⟨nextRowid s.db .rawOutput, id, sessionId, .rawOutput "" "", ""⟩
        else s.db.rows.find? entity := by
      intro entity
      rw [hrows, Table.find?_push]
      rfl
    obtain ⟨hclient, hknown, hrecent, hview, hids⟩ := ih
      (s := { s with
        db := recordChange { s.db with rows := rows } sessionId ⟨.rawOutput, id⟩
        known := ⟨.rawOutput, id⟩ :: s.known
        recent := ⟨.rawOutput, id⟩ :: s.recent }) hcursor hnodup (by
      intro other hother
      have hne : id ≠ other := fun heq => hid (heq ▸ hother)
      simp [hfind, hne, hfreeIds other hother])
    have hseen : (view (recordChange { s.db with rows := rows } sessionId
        ⟨.rawOutput, id⟩) sessionId ⟨.rawOutput, id⟩).isSome := by
      simp [view, hfind]
    refine ⟨hclient, ?_, ?_, ?_, ?_⟩
    · intro entity hentity
      exact hknown entity (List.mem_cons_of_mem _ hentity)
    · intro hsame
      apply hrecent
      rw [hsame]
    · intro entity hentity
      apply hview
      by_cases hsame : (⟨.rawOutput, id⟩ : EntityKey) = entity
      · rw [← hsame]
        exact hseen
      · simpa [view, hfind, hsame] using hentity
    · intro other hother
      rcases List.mem_cons.mp hother with rfl | hother
      · exact ⟨hknown _ (List.mem_cons_self ..), hview _ hseen⟩
      · exact hids other hother

/-- A client that has read nothing since is reset once the changes are pruned. -/
theorem poll_after_prune (sizes : Sizes) (h : Tracks sessionId s)
    (hclient : s.client = ⟨.empty, some 0⟩) (hentity : entity ∈ s.recent)
    (hview : (view s.db sessionId entity).isSome) :
    run (step sizes sessionId) s [.prune s.db.head, .poll none] =
      receive { s with db := prune s.db s.db.head }
        (listAuthoritativeTail (prune s.db s.db.head) sessionId) := by
  have hcursor : s.client.cursor = some 0 := by rw [hclient]
  have hpassed : 0 < (prune s.db s.db.head).prunedThrough sessionId := by
    rcases h.current 0 hcursor entity hentity with hheld | hbeyond
    · rw [← hheld, hclient] at hview
      cases hview
    · obtain ⟨change, hchange, hsession, _, hlt⟩ := hbeyond
      have hle := h.wf.logged change hchange
      rcases (prune_wf h.wf s.db.head).kept change hchange with hstored | hpruned
      · have hgt := (List.mem_filter.mp hstored).2
        rw [decide_eq_true_eq] at hgt
        omega
      · rw [hsession] at hpruned
        omega
  have hreset : listSessionChangesSinceWithBudget sizes (prune s.db s.db.head) sessionId
      (some 0) none = .ok (listAuthoritativeTail (prune s.db s.db.head) sessionId) := by
    rw [listSessionChangesSinceWithBudget, listChangePage, if_neg (by omega), if_pos (.inr hpassed)]
  rw [run_cons, run_cons, run_nil, step, step]
  rw [hcursor, hreset]

/-- A reset brings no more than a hundred raw outputs. -/
theorem reset_misses {ids : List String} (hnodup : ids.Nodup)
    (hmany : sessionRawOutputPageLimit < ids.length)
    (hids : ∀ id ∈ ids, (view s.db sessionId ⟨.rawOutput, id⟩).isSome) :
    ∃ id ∈ ids, (receive s (listAuthoritativeTail s.db sessionId)).client.held.find?
      ⟨.rawOutput, id⟩ ≠ view s.db sessionId ⟨.rawOutput, id⟩ := by
  by_contra hall
  push Not at hall
  have hsub : ∀ entity ∈ ids.map (EntityKey.mk .rawOutput),
      entity ∈ (listRawOutputRows s.db sessionId).map (·.entity) := by
    intro entity hentity
    obtain ⟨id, hid, rfl⟩ := List.mem_map.mp hentity
    have hview := hids id hid
    rw [← hall id hid, held_reset] at hview
    split at hview
    · rename_i hsent
      obtain ⟨row, hrow, hkey⟩ := List.mem_map.mp hsent
      rcases List.mem_append.mp hrow with hevent | hraw
      · have hkind := (mem_sessionRows.mp (List.mem_filter.mp hevent).1).2.2
        rw [hkey] at hkind
        cases hkind
      · exact List.mem_map.mpr ⟨row, hraw, hkey⟩
    · cases hview
  have hkeys : (ids.map (EntityKey.mk .rawOutput)).Nodup := by
    apply List.Nodup.map _ hnodup
    intro a b hab
    exact congrArg (·.id) hab
  have hle := (List.subperm_of_subset hkeys hsub).length_le
  rw [List.length_map, List.length_map, listRawOutputRows, newest, List.length_drop] at hle
  omega

/-- More rows than a reset brings are lost on a client at the head. -/
theorem not_held_of_many {ids : List String} (hnodup : ids.Nodup)
    (hmany : sessionRawOutputPageLimit < ids.length) :
    ¬ ∀ (sizes : Sizes) (sessionId : String) (actions : List Action),
      (run (step sizes sessionId) start actions).client.cursor =
        some (run (step sizes sessionId) start actions).db.head →
      ∀ entity ∈ (run (step sizes sessionId) start actions).known,
        (run (step sizes sessionId) start actions).client.held.find? entity =
          view (run (step sizes sessionId) start actions).db sessionId entity := by
  intro hclaim
  let sizes : Sizes := ⟨fun _ => 1, fun _ => 1, fun _ _ _ => 1⟩
  generalize hinserts : (ids.map fun id =>
    Action.insert id "s" (.rawOutput "" "") "") = inserts
  generalize hread : step sizes "s" start (.poll none) = read
  have hclient : read.client = ⟨.empty, some 0⟩ := by
    rw [← hread]
    rfl
  have hfilled := insert_all sizes "s" ids (s := read)
    (by rw [hclient]) hnodup (by
      intro id _
      rw [← hread]
      rfl)
  have htracks : Tracks "s" (run (step sizes "s") read inserts) := by
    apply run_invariant (step_tracks sizes "s")
    rw [← hread]
    exact step_tracks sizes "s" _ _ (start_tracks "s")
  have hrun := hclaim sizes "s" (.poll none :: inserts ++
    [.prune (run (step sizes "s") read inserts).db.head, .poll none])
  rw [List.cons_append, run_cons, hread, run_append] at hrun
  rw [hinserts] at hfilled
  revert hfilled htracks hrun
  generalize run (step sizes "s") read inserts = filled
  rintro ⟨hsame, _, hrecent, _, hids⟩ htracks hrun
  have hknown : filled.recent = filled.known := by
    apply hrecent
    rw [← hread]
    rfl
  obtain ⟨first, hfirst⟩ := List.exists_mem_of_length_pos (Nat.zero_lt_of_lt hmany)
  rw [poll_after_prune sizes htracks (hsame.trans hclient) (hknown ▸ (hids first hfirst).1)
    (hids first hfirst).2] at hrun
  obtain ⟨id, hid, hmissed⟩ := reset_misses
    (s := { filled with db := prune filled.db filled.db.head }) hnodup
    hmany
    (fun id hid => (hids id hid).2)
  exact hmissed (hrun rfl _ (List.mem_append_right _ (hids id hid).1))

/-- A hundred and one ids. -/
def manyIds : List String := (List.range 101).map fun n => String.ofList (List.replicate n 'x')

theorem manyIds_nodup : manyIds.Nodup := by
  apply List.Nodup.map _ List.nodup_range
  intro m n h
  have hchars := congrArg (fun text => text.toList.length) h
  simpa using hchars

theorem length_manyIds : manyIds.length = 101 := by
  rw [manyIds, List.length_map, List.length_range]

/-- A client at the head need not hold every row it was ever sent: the reset that
follows a pruning brings the newest hundred raw outputs only. -/
theorem reset_forgets_known :
    ¬ ∀ (sizes : Sizes) (sessionId : String) (actions : List Action),
      (run (step sizes sessionId) start actions).client.cursor =
        some (run (step sizes sessionId) start actions).db.head →
      ∀ entity ∈ (run (step sizes sessionId) start actions).known,
        (run (step sizes sessionId) start actions).client.held.find? entity =
          view (run (step sizes sessionId) start actions).db sessionId entity := by
  apply not_held_of_many manyIds_nodup
  rw [length_manyIds, sessionRawOutputPageLimit]
  omega

end Argmax.Persistence.ChangeFeed
