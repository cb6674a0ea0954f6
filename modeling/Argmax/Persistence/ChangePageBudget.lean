import Argmax.Lib.Text
import Argmax.Persistence.ChangeFeedConvergence

/-!
# The byte budget of a change page

A reader behind a socket gives `list_change_page` a budget. The loop counts an
envelope, taken with the largest cursors the page may carry, and for each entity its
own text and one comma. Here a page is written out as JSON, with the texts of rows
and ids left open, and its length compared with the budget.

An answer that replaces everything the reader holds is not cut to the budget: it is
the bounded tail of the session.

## Main results

* `fill_accounted`: what the loop has spent is the cost of what it has included.
* `byteLength_pageText_le`: a page is no longer than its envelope and its entities.
* `change_page_bounded`: the bound, the progress and the coverage of a page, in every
  state of every run.
-/

namespace Argmax.Persistence.ChangeFeed

open Argmax.Lib Argmax.Lib.Text

/-! ## The text of a page -/

/-- `usize::MAX`. -/
def maxUsize : ℕ := 2 ^ 64 - 1

/-- The length of a serialised value, as a `usize`. -/
def serializedLen (text : List Char) : ℕ := min (byteLength text) maxUsize

/-- The JSON of the members of a page. -/
structure EntityTexts where
  row : FeedRow → List Char
  id : String → List Char

def intText : ℤ → List Char
  | .ofNat n => Nat.toDigits 10 n
  | .negSucc n => '-' :: Nat.toDigits 10 (n + 1)

def boolText (b : Bool) : List Char := if b then "true".toList else "false".toList

def arrayText (items : List (List Char)) : List Char :=
  '[' :: (List.intercalate [','] items ++ [']'])

/-- A field of an object with the comma or brace before it. -/
def fieldText (opener name : String) (value : List Char) : List Char :=
  opener.toList ++ '"' :: (name.toList ++ '"' :: ':' :: value)

/-- The JSON of a `SessionEventsSinceResult`. -/
def pageText (texts : EntityTexts) (page : Page) : List Char :=
  fieldText "\x7b" "events" (arrayText (page.events.map texts.row)) ++
    (fieldText "," "rawOutputs" (arrayText (page.rawOutputs.map texts.row)) ++
    (fieldText "," "eventCursor" (intText page.eventCursor) ++
    (fieldText "," "rawOutputCursor" (intText page.rawOutputCursor) ++
    (fieldText "," "changeCursor" ((page.changeCursor.map intText).getD "null".toList) ++
    (fieldText "," "deletedEventIds" (arrayText (page.deletedEventIds.map texts.id)) ++
    (fieldText "," "deletedRawOutputIds" (arrayText (page.deletedRawOutputIds.map texts.id)) ++
    (fieldText "," "resetRequired" (boolText page.resetRequired) ++
    (fieldText "," "hasMore" (boolText page.hasMore) ++ "\x7d".toList))))))))

/-- The empty page that carries three cursors. -/
def envelopePage (eventCursor rawOutputCursor changeCursor : ℤ) : Page :=
  ⟨[], [], eventCursor, rawOutputCursor, some changeCursor, [], [], false, false⟩

/-- The lengths the loop works with. -/
def EntityTexts.sizes (texts : EntityTexts) : Sizes where
  row row := serializedLen (texts.row row)
  id id := serializedLen (texts.id id)
  envelope event rawOutput change :=
    serializedLen (pageText texts (envelopePage event rawOutput change))

/-- What a page says something about. -/
def Page.entities (page : Page) : List EntityKey :=
  page.rows.map (·.entity) ++ page.deleted

/-! ## Lengths -/

theorem byteLength_intercalate_le (items : List (List Char)) :
    byteLength (List.intercalate [','] items) ≤
      (items.map fun item => byteLength item + 1).sum := by
  induction items with
  | nil => simp [List.intercalate]
  | cons item items ih =>
    cases items with
    | nil => simp [List.intercalate]
    | cons item' items =>
      have hcomma : byteLength [','] = 1 := rfl
      rw [List.intercalate_cons_cons, byteLength_append, byteLength_append, List.map_cons,
        List.sum_cons]
      omega

theorem byteLength_arrayText_le (items : List (List Char)) :
    byteLength (arrayText items) ≤
      byteLength (arrayText []) + (items.map fun item => byteLength item + 1).sum := by
  have hle := byteLength_intercalate_le items
  simp only [arrayText, byteLength_cons, byteLength_append, List.intercalate_nil, byteLength_nil]
  omega

theorem length_toDigits_mono {n m : ℕ} (h : n ≤ m) :
    (Nat.toDigits 10 n).length ≤ (Nat.toDigits 10 m).length := by
  have hpos : 0 < (Nat.toDigits 10 m).length := Nat.length_toDigits_pos
  have hm : m < 10 ^ (Nat.toDigits 10 m).length :=
    (Nat.length_toDigits_le_iff (by decide) hpos).mp (Nat.le_refl _)
  exact (Nat.length_toDigits_le_iff (by decide) hpos).mpr (by omega)

/-- A smaller cursor is no longer. -/
theorem byteLength_intText_mono {a b : ℤ} (ha : 0 ≤ a) (h : a ≤ b) :
    byteLength (intText a) ≤ byteLength (intText b) := by
  have ⟨n, hn⟩ := Int.eq_ofNat_of_zero_le ha
  have ⟨m, hm⟩ := Int.eq_ofNat_of_zero_le (ha.trans h)
  subst hn hm
  change byteLength (Nat.toDigits 10 n) ≤ byteLength (Nat.toDigits 10 m)
  rw [byteLength_toDigits, byteLength_toDigits]
  exact length_toDigits_mono (by omega)

theorem byteLength_fieldText (opener name : String) (value : List Char) :
    byteLength (fieldText opener name value) =
      byteLength opener.toList + byteLength name.toList + 3 + byteLength value := by
  have hquote : Char.utf8Size '"' = 1 := rfl
  have hcolon : Char.utf8Size ':' = 1 := rfl
  simp only [fieldText, byteLength_append, byteLength_cons]
  omega

theorem byteLength_boolText_le (b : Bool) :
    byteLength (boolText b) ≤ byteLength (boolText false) := by
  cases b <;> decide

/-- What a list of texts adds to a page: each with a comma. -/
def cost (items : List (List Char)) : ℕ := (items.map fun item => byteLength item + 1).sum

@[simp] theorem cost_nil : cost [] = 0 := rfl

@[simp] theorem cost_append (items items' : List (List Char)) :
    cost (items ++ items') = cost items + cost items' := by
  simp [cost]

@[simp] theorem cost_singleton (item : List Char) : cost [item] = byteLength item + 1 := rfl

variable {page : Page} {change : Change}

/-- **A page is no longer than its envelope and its members.** -/
theorem byteLength_pageText_le (texts : EntityTexts)
    {eventCursor rawOutputCursor changeCursor next : ℤ}
    (hevent : 0 ≤ page.eventCursor ∧ page.eventCursor ≤ eventCursor)
    (hraw : 0 ≤ page.rawOutputCursor ∧ page.rawOutputCursor ≤ rawOutputCursor)
    (hnext : page.changeCursor = some next) (hchange : 0 ≤ next ∧ next ≤ changeCursor) :
    byteLength (pageText texts page) ≤
      byteLength (pageText texts (envelopePage eventCursor rawOutputCursor changeCursor)) +
        cost (page.rows.map texts.row ++
          (page.deletedEventIds ++ page.deletedRawOutputIds).map texts.id) := by
  have hevents := byteLength_arrayText_le (page.events.map texts.row)
  have hraws := byteLength_arrayText_le (page.rawOutputs.map texts.row)
  have hgone := byteLength_arrayText_le (page.deletedEventIds.map texts.id)
  have hgoneRaw := byteLength_arrayText_le (page.deletedRawOutputIds.map texts.id)
  have hcursor := byteLength_intText_mono hevent.1 hevent.2
  have hrawCursor := byteLength_intText_mono hraw.1 hraw.2
  have hchangeCursor := byteLength_intText_mono hchange.1 hchange.2
  have hreset := byteLength_boolText_le page.resetRequired
  have hmore := byteLength_boolText_le page.hasMore
  rw [← cost] at hevents hraws hgone hgoneRaw
  rw [Page.rows, List.map_append, List.map_append, cost_append, cost_append, cost_append,
    pageText, pageText, envelopePage, hnext]
  simp only [byteLength_append, byteLength_fieldText, Option.map_some, Option.getD_some,
    List.map_nil]
  omega

/-! ## What the loop has spent -/

section

variable (texts : EntityTexts) (current : EntityKey → Option FeedRow) (base limit : ℕ)

/-- The member an entity becomes: its row, or its id where it is gone. -/
def entityText (entity : EntityKey) : List Char :=
  match current entity with
  | some row => texts.row row
  | none => texts.id entity.id

/-- No entity is counted twice, the bytes spent are the base and the included
entities, and beyond the first entity they stay within the limit. -/
structure Accounted (filling : Filling) : Prop where
  nodup : filling.included.Nodup
  spent : filling.spent =
    min (base + cost (filling.included.map (entityText texts current))) maxUsize
  bounded : filling.included.length ≤ 1 ∨ filling.spent ≤ limit

variable {texts current base limit}

theorem saturatingAdd_min (a b : ℕ) :
    saturatingAdd (min a maxUsize) (min b maxUsize) = min (a + b) maxUsize := by
  change min (min a maxUsize + min b maxUsize) maxUsize = _
  omega

theorem contribution_included {filling : Filling} {entity : EntityKey}
    (h : entity ∈ filling.included) :
    contribution texts.sizes current (some limit) filling.included entity = 0 := by
  simp [contribution, h]

theorem contribution_new {filling : Filling} {entity : EntityKey}
    (h : entity ∉ filling.included) :
    contribution texts.sizes current (some limit) filling.included entity =
      min (byteLength (entityText texts current entity) + 1) maxUsize := by
  have hsize : contribution texts.sizes current (some limit) filling.included entity =
      saturatingAdd (serializedLen (entityText texts current entity)) 1 := by
    rw [contribution, entityText]
    cases current entity <;> simp [h, EntityTexts.sizes]
  rw [hsize, saturatingAdd, serializedLen, maxUsize]
  omega

theorem fill_accounted {filling : Filling} (h : Accounted texts current base limit filling)
    (changes : List Change) :
    Accounted texts current base limit (fill texts.sizes current (some limit) filling changes) := by
  induction changes generalizing filling with
  | nil => exact h
  | cons change changes ih =>
    rw [fill]
    split
    · exact h
    · rename_i hfits
      refine ih ?_
      have hspent := h.spent
      by_cases hin : change.entity ∈ filling.included
      · -- a repeat costs nothing
        rw [contribution_included hin]
        refine ⟨by simpa [hin] using h.nodup, ?_, ?_⟩
        · simp only [List.contains_iff_mem.mpr hin, if_true, saturatingAdd, hspent, maxUsize]
          omega
        · have hbounded := h.bounded
          simp only [List.contains_iff_mem.mpr hin, if_true, saturatingAdd]
          omega
      · have hnew := @contribution_new texts current limit _ change.entity hin
        have hnot : filling.included.contains change.entity = false := by simpa using hin
        rw [hnew] at hfits
        rw [hnew]
        simp only [hnot, Bool.false_eq_true, if_false]
        refine ⟨?_, ?_, ?_⟩
        · refine List.Nodup.append h.nodup (List.nodup_singleton _) ?_
          simpa using hin
        · rw [hspent, saturatingAdd_min, List.map_append, cost_append, List.map_singleton,
            cost_singleton, Nat.add_assoc base]
        · cases hempty : filling.included with
          | nil => simp
          | cons entity included =>
            -- a second entity was checked against the limit
            refine Or.inr ?_
            simp only [Option.any_some, hempty, List.isEmpty_cons, Bool.not_false,
              Bool.and_true, Bool.and_eq_true, decide_eq_true_eq, not_and, Nat.not_lt] at hfits
            exact hfits (Nat.lt_min.mpr ⟨Nat.succ_pos _, by decide⟩)

end

/-! ## The page that is filled -/

section

variable (db : Db) (sessionId : String) (cursor : ℤ)

/-- The changes of the session after the cursor. -/
def pendingChanges : List Change :=
  db.changes.filter fun change => change.sessionId == sessionId &&
    decide (cursor < change.sequence) && decide (change.sequence ≤ db.head)

/-- The changes one page looks at. -/
def candidates : List Change :=
  ((pendingChanges db sessionId cursor).take (sessionChangePageLimit + 1)).take
    sessionChangePageLimit

/-- The rows of the candidates. -/
def candidateRows : List FeedRow :=
  listByIds db sessionId .event ((candidates db sessionId cursor).map (·.entity)) ++
    listByIds db sessionId .rawOutput ((candidates db sessionId cursor).map (·.entity))

/-- The row of an entity among the candidates. -/
def currentRow (entity : EntityKey) : Option FeedRow :=
  (candidateRows db sessionId cursor).find? fun row => row.entity == entity

variable {db sessionId cursor}

theorem currentRow_of_mem {row : FeedRow} (h : row ∈ candidateRows db sessionId cursor) :
    currentRow db sessionId cursor row.entity = some row := by
  have htable : ∀ row ∈ candidateRows db sessionId cursor, row ∈ db.rows := by
    intro row hrow
    rcases List.mem_append.mp hrow with hrow | hrow <;> exact (mem_listByIds.mp hrow).1
  cases hfind : currentRow db sessionId cursor row.entity with
  | none =>
    have hno := List.find?_eq_none.mp hfind row h
    simp at hno
  | some row' =>
    have hmem := List.mem_of_find?_eq_some hfind
    have hkey : row'.entity = row.entity := by simpa using List.find?_some hfind
    rw [Table.eq_of_key (htable row' hmem) (htable row h) hkey]

theorem currentRow_of_gone {entity : EntityKey} (h : view db sessionId entity = none) :
    currentRow db sessionId cursor entity = none := by
  rw [currentRow, List.find?_eq_none]
  intro row hrow hkey
  have hrow : row ∈ db.rows ∧ row.sessionId = sessionId := by
    rcases List.mem_append.mp hrow with hrow | hrow <;>
      exact ⟨(mem_listByIds.mp hrow).1, (mem_listByIds.mp hrow).2.1⟩
  have hview : view db sessionId entity = some row :=
    view_eq_some.mpr ⟨hrow.1, by simpa using hkey, hrow.2⟩
  simp [hview] at h

theorem nodup_sessionRows (kind : EntityKind) :
    ((sessionRows db sessionId kind).map (·.entity)).Nodup := by
  rw [sessionRows, ((List.perm_insertionSort _ _).map _).nodup_iff]
  exact db.rows.unique.sublist (List.filter_sublist.map _)

/-- The deleted ids of one kind name included entities that no row has. -/
theorem map_deletedIds (kind : EntityKind) (included : List EntityKey) (rows : List FeedRow) :
    (deletedIds kind included rows).map (⟨kind, ·⟩) =
      included.filter fun entity =>
        entity.kind == kind && !rows.any fun row => row.entity == entity := by
  rw [deletedIds, List.map_map]
  refine (List.map_congr_left ?_).trans (List.map_id _)
  intro entity hentity
  have hkind : entity.kind = kind := by
    have hkeep := (List.mem_filter.mp hentity).2
    simp only [Bool.and_eq_true, beq_iff_eq] at hkeep
    exact hkeep.1
  simp [← hkind]

variable (sizes : Sizes) (budget : Option ℕ)

/-- The state of the loop when the page is full. -/
def filledPage (sizes : Sizes) (db : Db) (sessionId : String) (cursor : ℤ)
    (budget : Option ℕ) : Filling :=
  fill sizes (currentRow db sessionId cursor) budget
    ⟨[], 0, cursor,
      if budget.isSome then
        sizes.envelope
          (maxRowCursor (listByIds db sessionId .event
            ((candidates db sessionId cursor).map (·.entity))))
          (maxRowCursor (listByIds db sessionId .rawOutput
            ((candidates db sessionId cursor).map (·.entity))))
          db.head
      else 0⟩
    (candidates db sessionId cursor)

/-- The rows of one kind that the page includes. -/
def includedRows (sizes : Sizes) (db : Db) (sessionId : String) (cursor : ℤ)
    (budget : Option ℕ) (kind : EntityKind) : List FeedRow :=
  (listByIds db sessionId kind ((candidates db sessionId cursor).map (·.entity))).filter
    fun row => (filledPage sizes db sessionId cursor budget).included.contains row.entity

/-- What the page consists of. -/
structure FilledFrom (sizes : Sizes) (db : Db) (sessionId : String) (cursor : ℤ)
    (budget : Option ℕ) (page : Page) : Prop where
  served : 0 ≤ cursor ∧ cursor ≤ db.head
  events : page.events = includedRows sizes db sessionId cursor budget .event
  rawOutputs : page.rawOutputs = includedRows sizes db sessionId cursor budget .rawOutput
  eventCursor : page.eventCursor = maxRowCursor page.events
  rawOutputCursor : page.rawOutputCursor = maxRowCursor page.rawOutputs
  deletedEvents : page.deletedEventIds =
    deletedIds .event (filledPage sizes db sessionId cursor budget).included page.events
  deletedRawOutputs : page.deletedRawOutputIds =
    deletedIds .rawOutput (filledPage sizes db sessionId cursor budget).included page.rawOutputs
  hasMore : page.hasMore = decide ((filledPage sizes db sessionId cursor budget).consumed <
    ((pendingChanges db sessionId cursor).take (sessionChangePageLimit + 1)).length)
  changeCursor : page.changeCursor = some (if page.hasMore then
    (filledPage sizes db sessionId cursor budget).lastConsumedSequence else db.head)

/-- An answer replaces everything, with the head as its cursor, or it is filled. -/
theorem listChangePage_cases (h : listChangePage sizes db sessionId cursor budget = .ok page) :
    page = listAuthoritativeTail db sessionId ∨
      page.resetRequired = false ∧ FilledFrom sizes db sessionId cursor budget page := by
  rw [listChangePage] at h
  split at h
  · cases h
  · rename_i hnonneg
    split at h
    · exact Or.inl (by cases h; rfl)
    · rename_i hserved
      cases h
      refine Or.inr ⟨rfl, ?_⟩
      constructor <;> first | rfl | omega

theorem mem_candidates (h : change ∈ candidates db sessionId cursor) :
    change ∈ pendingChanges db sessionId cursor :=
  List.mem_of_mem_take (List.mem_of_mem_take h)

theorem mem_pendingChanges (h : change ∈ pendingChanges db sessionId cursor) :
    change ∈ db.changes ∧ change.sessionId = sessionId ∧ cursor < change.sequence ∧
      change.sequence ≤ db.head := by
  simp only [pendingChanges, List.mem_filter, Bool.and_eq_true, beq_iff_eq, decide_eq_true_eq] at h
  exact ⟨h.1, h.2.1.1, h.2.1.2, h.2.2⟩

/-- The included entities are entities of candidates. -/
theorem included_candidate {entity : EntityKey}
    (h : entity ∈ (filledPage sizes db sessionId cursor budget).included) :
    entity ∈ (candidates db sessionId cursor).map (·.entity) := by
  obtain ⟨taken, rest, hsplit, _, hincluded, _, _⟩ :=
    fill_spec sizes (currentRow db sessionId cursor) budget ⟨[], 0, cursor, _⟩
      (candidates db sessionId cursor)
  have htaken : entity ∈ taken.map (·.entity) := by simpa using (hincluded entity).mp h
  rw [hsplit, List.map_append]
  exact List.mem_append_left _ htaken

/-- A page that answers for some entities is about them. -/
theorem Answers.mem_entities {included : List EntityKey} (h : Answers db sessionId included page)
    (entity : EntityKey) : entity ∈ page.entities ↔ entity ∈ included := by
  rw [Page.entities, List.mem_append, h.deleted, List.mem_map]
  constructor
  · rintro (⟨row, hrow, rfl⟩ | hgone)
    · exact ((h.rows row).mp hrow).2.2
    · exact hgone.1
  · intro hin
    cases hview : view db sessionId entity with
    | none => exact Or.inr ⟨hin, rfl⟩
    | some row =>
      have ⟨hrow, hkey, hsession⟩ := view_eq_some.mp hview
      exact Or.inl ⟨row, (h.rows row).mpr ⟨hrow, hsession, by rwa [hkey]⟩, hkey⟩

namespace FilledFrom

variable {sizes budget} {page : Page} (h : FilledFrom sizes db sessionId cursor budget page)
include h

theorem answers :
    Answers db sessionId (filledPage sizes db sessionId cursor budget).included page := by
  refine answers_of_rows ?_ ?_ h.deletedEvents h.deletedRawOutputs
  · rw [h.events]
    exact mem_included_rows fun entity => included_candidate sizes budget
  · rw [h.rawOutputs]
    exact mem_included_rows fun entity => included_candidate sizes budget

theorem nodup_entities (hnodup : (filledPage sizes db sessionId cursor budget).included.Nodup) :
    page.entities.Nodup := by
  have hrows : ∀ kind, ((includedRows sizes db sessionId cursor budget kind).map
      (·.entity)).Nodup := fun kind =>
    (nodup_sessionRows kind).sublist ((List.filter_sublist.trans List.filter_sublist).map _)
  have hkind : ∀ kind, ∀ entity ∈ (includedRows sizes db sessionId cursor budget kind).map
      (·.entity), entity.kind = kind := by
    intro kind entity hentity
    obtain ⟨row, hrow, hkey⟩ := List.mem_map.mp hentity
    rw [← hkey]
    exact (mem_listByIds.mp (List.mem_of_mem_filter hrow)).2.2.1
  have hdeleted : ∀ kind rows, ((deletedIds kind
      (filledPage sizes db sessionId cursor budget).included rows).map
        (EntityKey.mk kind)).Nodup := by
    intro kind rows
    rw [map_deletedIds]
    exact hnodup.filter _
  rw [Page.entities, List.nodup_append]
  refine ⟨?_, ?_, ?_⟩
  · rw [Page.rows, List.map_append, List.nodup_append, h.events, h.rawOutputs]
    refine ⟨hrows .event, hrows .rawOutput, ?_⟩
    intro a ha b hb hab
    have hevent := hkind _ a ha
    rw [hab, hkind _ b hb] at hevent
    cases hevent
  · rw [Page.deleted, List.nodup_append, h.deletedEvents, h.deletedRawOutputs]
    refine ⟨hdeleted _ _, hdeleted _ _, ?_⟩
    intro a ha b hb hab
    obtain ⟨_, _, hevent⟩ := List.mem_map.mp ha
    obtain ⟨_, _, hraw⟩ := List.mem_map.mp hb
    rw [← hevent, ← hraw] at hab
    cases hab
  · intro a ha b hb hab
    obtain ⟨row, hrow, hkey⟩ := List.mem_map.mp ha
    have hgone := ((h.answers.deleted b).mp hb).2
    obtain ⟨htable, hsession, _⟩ := (h.answers.rows row).mp hrow
    have hview : view db sessionId b = some row :=
      view_eq_some.mpr ⟨htable, by rw [hkey, hab], hsession⟩
    simp [hview] at hgone

/-- The page writes each of its entities as the loop counted it. -/
theorem members (texts : EntityTexts) :
    page.rows.map texts.row ++
        (page.deletedEventIds ++ page.deletedRawOutputIds).map texts.id =
      page.entities.map (entityText texts (currentRow db sessionId cursor)) := by
  have hrow : ∀ row ∈ page.rows, entityText texts (currentRow db sessionId cursor) row.entity =
      texts.row row := by
    intro row hrow
    have hcandidate : row ∈ candidateRows db sessionId cursor := by
      rw [Page.rows, h.events, h.rawOutputs] at hrow
      rcases List.mem_append.mp hrow with hrow | hrow
      · exact List.mem_append_left _ (List.mem_of_mem_filter hrow)
      · exact List.mem_append_right _ (List.mem_of_mem_filter hrow)
    rw [entityText, currentRow_of_mem hcandidate]
  have hgone : ∀ entity ∈ page.deleted,
      entityText texts (currentRow db sessionId cursor) entity = texts.id entity.id := by
    intro entity hentity
    rw [entityText, currentRow_of_gone ((h.answers.deleted entity).mp hentity).2]
  have hrows : (page.rows.map (·.entity)).map
      (entityText texts (currentRow db sessionId cursor)) = page.rows.map texts.row := by
    rw [List.map_map]
    exact List.map_congr_left hrow
  rw [Page.entities, @List.map_append _ _ _ (page.rows.map _), hrows, List.map_congr_left hgone,
    Page.deleted, List.map_append, List.map_append, List.map_map, List.map_map]
  rfl

/-- The entities of the page are among the included ones, each once. -/
theorem subperm_included
    (hnodup : (filledPage sizes db sessionId cursor budget).included.Nodup) :
    List.Subperm page.entities (filledPage sizes db sessionId cursor budget).included :=
  List.subperm_of_subset (h.nodup_entities hnodup) fun entity =>
    (h.answers.mem_entities entity).mp

end FilledFrom

theorem cost_le_of_sublist {items items' : List (List Char)} (h : items.Sublist items') :
    cost items ≤ cost items' := by
  induction h with
  | slnil => exact Nat.le_refl _
  | cons item h ih => exact Nat.le_trans ih (by simp [cost])
  | cons_cons item h ih => simpa [cost] using ih

theorem cost_le_of_subperm (f : EntityKey → List Char) {entities entities' : List EntityKey}
    (h : List.Subperm entities entities') : cost (entities.map f) ≤ cost (entities'.map f) := by
  have ⟨middle, hperm, hsub⟩ := h
  have hsame : cost (middle.map f) = cost (entities.map f) := ((hperm.map f).map _).sum_nat
  rw [← hsame]
  exact cost_le_of_sublist (hsub.map f)

theorem maxRowCursor_nonneg (rows : List FeedRow) : 0 ≤ maxRowCursor rows :=
  (le_foldr_max _ rows 0).1

theorem maxRowCursor_mono {rows rows' : List FeedRow} (h : ∀ row ∈ rows, row ∈ rows') :
    maxRowCursor rows ≤ maxRowCursor rows' := by
  induction rows with
  | nil => exact maxRowCursor_nonneg rows'
  | cons row rows ih =>
    have hle := ih fun row' hrow' => h row' (List.mem_cons_of_mem _ hrow')
    have hrow : row.rowid ≤ maxRowCursor rows' :=
      (le_foldr_max (·.rowid) rows' 0).2 row (h row (by simp))
    simp only [maxRowCursor, List.foldr_cons] at *
    omega

/-- **A filled page is within its budget or has one entity.** -/
theorem FilledFrom.bounded {texts : EntityTexts} {limit : ℕ} {next : ℤ}
    (h : FilledFrom texts.sizes db sessionId cursor (some limit) page)
    (hnext : page.changeCursor = some next) (hhead : 0 ≤ next ∧ next ≤ db.head) :
    serializedLen (pageText texts page) ≤ limit ∨ page.entities.length ≤ 1 := by
  have hfilled : Accounted texts (currentRow db sessionId cursor)
      (byteLength (pageText texts (envelopePage
        (maxRowCursor (listByIds db sessionId .event
          ((candidates db sessionId cursor).map (·.entity))))
        (maxRowCursor (listByIds db sessionId .rawOutput
          ((candidates db sessionId cursor).map (·.entity)))) db.head)))
      limit (filledPage texts.sizes db sessionId cursor (some limit)) :=
    fill_accounted ⟨List.nodup_nil, by simp [EntityTexts.sizes, serializedLen], Or.inl (by simp)⟩ _
  have hsub := h.subperm_included hfilled.nodup
  rcases hfilled.bounded with hone | hspent
  · exact Or.inr (Nat.le_trans hsub.length_le hone)
  · refine Or.inl (Nat.le_trans ?_ hspent)
    have hcost := cost_le_of_subperm (entityText texts (currentRow db sessionId cursor)) hsub
    have hevent : 0 ≤ page.eventCursor ∧ page.eventCursor ≤ maxRowCursor
        (listByIds db sessionId .event ((candidates db sessionId cursor).map (·.entity))) := by
      rw [h.eventCursor, h.events]
      exact ⟨maxRowCursor_nonneg _, maxRowCursor_mono fun _ => List.mem_of_mem_filter⟩
    have hraw : 0 ≤ page.rawOutputCursor ∧ page.rawOutputCursor ≤ maxRowCursor
        (listByIds db sessionId .rawOutput ((candidates db sessionId cursor).map (·.entity))) := by
      rw [h.rawOutputCursor, h.rawOutputs]
      exact ⟨maxRowCursor_nonneg _, maxRowCursor_mono fun _ => List.mem_of_mem_filter⟩
    have hpage := byteLength_pageText_le texts hevent hraw hnext hhead
    rw [h.members texts] at hpage
    rw [hfilled.spent, serializedLen]
    omega

/-- A filled page passes a pending change when there is one. -/
theorem FilledFrom.consumes {next : ℤ} (h : FilledFrom sizes db sessionId cursor budget page)
    (hnext : page.changeCursor = some next) (hchange : change ∈ pendingChanges db sessionId cursor) :
    ∃ first ∈ pendingChanges db sessionId cursor, first.sequence ≤ next := by
  have hcursor := h.changeCursor
  rw [hnext, Option.some.injEq] at hcursor
  by_cases hmore : page.hasMore = true
  · rw [if_pos hmore] at hcursor
    obtain ⟨taken, rest, hsplit, _, _, hlast, hsome⟩ :=
      fill_spec sizes (currentRow db sessionId cursor) budget ⟨[], 0, cursor, _⟩
        (candidates db sessionId cursor)
    have htaken : taken ≠ [] := by
      refine hsome rfl ?_
      cases hpending : pendingChanges db sessionId cursor with
      | nil => simp [hpending] at hchange
      | cons first changes => simp [candidates, hpending, sessionChangePageLimit]
    have hin : taken.getLast htaken ∈ pendingChanges db sessionId cursor := by
      refine mem_candidates ?_
      rw [hsplit]
      exact List.mem_append_left _ (List.getLast_mem htaken)
    refine ⟨taken.getLast htaken, hin, ?_⟩
    rw [List.getLast?_eq_some_getLast htaken] at hlast
    exact Int.le_of_eq (hlast.symm.trans hcursor.symm)
  · rw [if_neg hmore] at hcursor
    rw [hcursor]
    exact ⟨change, hchange, (mem_pendingChanges hchange).2.2.2⟩

end

/-! ## Every answer of every run -/

/-- The change is still to be told to a reader with this cursor. -/
def PendingFor (db : Db) (sessionId : String) (cursor : ℤ) (change : Change) : Prop :=
  change ∈ db.changes ∧ change.sessionId = sessionId ∧ cursor < change.sequence

/-- The cursor of the page stands behind the change. -/
def Page.passes (page : Page) (change : Change) : Prop :=
  ∃ next, page.changeCursor = some next ∧ change.sequence ≤ next

/-- What holds of an answer of `list_change_page`. -/
structure PageBounded (texts : EntityTexts) (db : Db) (sessionId : String) (cursor : ℤ)
    (budget : Option ℕ) (page : Page) : Prop where
  /-- A page of changes is within the budget, or it has one entity, or none is pending. -/
  bounded : page.resetRequired = false → ∀ limit, budget = some limit →
    serializedLen (pageText texts page) ≤ limit ∨ page.entities.length = 1 ∨
      page.entities = [] ∧ ∀ change, ¬PendingFor db sessionId cursor change
  /-- An answer passes at least one change when any is pending. -/
  consumes : (∃ change, PendingFor db sessionId cursor change) →
    ∃ change, PendingFor db sessionId cursor change ∧ page.passes change
  /-- A page of changes says something about the entity of every change it passes. -/
  represented : page.resetRequired = false → ∀ change, PendingFor db sessionId cursor change →
    page.passes change → change.entity ∈ page.entities

theorem pendingFor_iff {db : Db} (h : db.WF) {sessionId : String} {cursor : ℤ} :
    PendingFor db sessionId cursor change ↔ change ∈ pendingChanges db sessionId cursor :=
  ((pending_changes h sessionId cursor).2 change).symm

theorem Db.WF.pageBounded {texts : EntityTexts} {db : Db} (hdb : db.WF) {sessionId : String}
    {cursor : ℤ} {budget : Option ℕ}
    (h : listChangePage texts.sizes db sessionId cursor budget = .ok page) :
    PageBounded texts db sessionId cursor budget page := by
  rcases listChangePage_cases texts.sizes budget h with rfl | ⟨hreset, hfilled⟩
  · refine ⟨fun hreset => absurd hreset (by simp [listAuthoritativeTail]), ?_,
      fun hreset => absurd hreset (by simp [listAuthoritativeTail])⟩
    intro ⟨change, hchange⟩
    exact ⟨change, hchange, db.head, rfl, hdb.drawn change hchange.1⟩
  have hcursor := hfilled.served.1
  rcases listChangePage_spec texts.sizes hdb sessionId hcursor budget with
    htail | ⟨page', included, hpage, _, _, hanswers, hadvances⟩
  · rw [htail] at h
    cases h
    simp [listAuthoritativeTail] at hreset
  rw [hpage] at h
  cases h
  have ⟨next, hnext, hge, hhead, _, _, hcovers⟩ := hadvances.cursor
  have hrepresented : ∀ change, PendingFor db sessionId cursor change → page.passes change →
      change.entity ∈ page.entities := by
    intro change ⟨hin, hsession, hafter⟩ ⟨next', hnext', hpassed⟩
    rw [hnext, Option.some.injEq] at hnext'
    rcases hcovers change hin hsession hafter with hincluded | hbeyond
    · exact (hanswers.mem_entities _).mpr hincluded
    · omega
  have hconsumes : (∃ change, PendingFor db sessionId cursor change) →
      ∃ change, PendingFor db sessionId cursor change ∧ page.passes change := by
    intro ⟨change, hchange⟩
    have ⟨first, hfirst, hle⟩ := hfilled.consumes _ _ hnext ((pendingFor_iff hdb).mp hchange)
    exact ⟨first, (pendingFor_iff hdb).mpr hfirst, next, hnext, hle⟩
  refine ⟨?_, hconsumes, fun _ => hrepresented⟩
  intro _ limit hlimit
  subst hlimit
  rcases hfilled.bounded hnext ⟨hcursor.trans hge, hhead⟩ with hfits | hfew
  · exact Or.inl hfits
  · refine Or.inr ?_
    by_cases hpending : ∃ change, PendingFor db sessionId cursor change
    · have ⟨change, hchange, hpassed⟩ := hconsumes hpending
      have hpos := List.length_pos_of_mem (hrepresented change hchange hpassed)
      exact Or.inl (by omega)
    · cases hentities : page.entities with
      | nil => exact Or.inr ⟨rfl, fun change hchange => hpending ⟨change, hchange⟩⟩
      | cons entity entities =>
        rw [hentities, List.length_cons] at hfew
        rw [List.length_cons]
        omega

/-- **The budget of a change page.** In every state of every run of mutations, prunings
and polls, for every session, cursor and budget. -/
theorem change_page_bounded (texts : EntityTexts) (client : String) (actions : List Action)
    (sessionId : String) (cursor : ℤ) (budget : Option ℕ) {page : Page}
    (h : listChangePage texts.sizes (run (step texts.sizes client) start actions).db
      sessionId cursor budget = .ok page) :
    PageBounded texts (run (step texts.sizes client) start actions).db sessionId cursor budget
      page :=
  (run_invariant (step_tracks texts.sizes client) (start_tracks client) actions).wf.pageBounded h

/-- Rows and ids written as their ids. -/
def idTexts : EntityTexts where
  row row := '"' :: (row.id.toList ++ ['"'])
  id id := '"' :: (id.toList ++ ['"'])

def twoEvents : List Action :=
  [.insert "a" "s" (.event "message.completed" "hi" .null) "2026-09-05T10:00:00.000Z",
    .insert "b" "s" (.event "message.completed" "ho" .null) "2026-09-05T10:00:01.000Z"]

theorem change_page_bounded_two_events :
    ∃ page, listChangePage idTexts.sizes (run (step idTexts.sizes "s") start twoEvents).db
        "s" 0 (some 0) = .ok page ∧
      PageBounded idTexts (run (step idTexts.sizes "s") start twoEvents).db "s" 0 (some 0) page :=
  ⟨_, rfl, change_page_bounded idTexts "s" twoEvents "s" 0 (some 0) rfl⟩

/-- A cursor the feed no longer serves is answered with the tail, whatever the
budget. -/
theorem reset_page_over_budget :
    ¬∀ (texts : EntityTexts) (client : String) (actions : List Action) (sessionId : String)
      (cursor : ℤ) (limit : ℕ) (page : Page),
      listChangePage texts.sizes (run (step texts.sizes client) start actions).db sessionId
          cursor (some limit) = .ok page →
        serializedLen (pageText texts page) ≤ limit ∨ page.entities.length = 1 := by
  intro h
  have hpage := h idTexts "s" (twoEvents ++ [.prune 2]) "s" 0 0
    (listAuthoritativeTail (run (step idTexts.sizes "s") start (twoEvents ++ [.prune 2])).db "s")
    (by rw [listChangePage, if_neg (by decide), if_pos (Or.inr (by decide))])
  rcases hpage with hfits | hone
  · exact absurd hfits (by decide +kernel)
  · exact absurd hone (by decide)

end Argmax.Persistence.ChangeFeed
