import Argmax.Renderer.Snapshot
import Mathlib.Data.List.Perm.Subperm

/-!
# Two merges of a slice in one

What a slice has under an id is the last row of the deltas with that id, else the row it
had. Two slices with the same rows are the same list up to rows that the sort does not
tell apart. So the rows of two deltas may be merged at once, as long as the second delta
takes back no row of the first and no slice reaches its limit.
-/

namespace Argmax.Renderer

open Argmax.Lib Argmax.Providers

/-! ## Rows by id -/

section Lookup

variable {T : Type*} {id : T → String}

/-- The row of an id: the last one in the list. -/
def lookup (id : T → String) (rows : List T) (key : String) : Option T :=
  (byId id rows).find? key

@[simp] theorem lookup_nil (key : String) : lookup id [] key = none := rfl

theorem lookup_singleton (row : T) (key : String) :
    lookup id [row] key = if id row = key then some row else none :=
  Table.find?_put (t := .empty) (r := row) key

theorem find?_foldl_put_or (table : Table id) (rows : List T) (key : String) :
    (rows.foldl Table.put table).find? key = (lookup id rows key).or (table.find? key) := by
  induction rows using List.reverseRecOn with
  | nil => rfl
  | append_singleton rows row ih =>
    have hlookup : lookup id (rows ++ [row]) key =
        if id row = key then some row else lookup id rows key := by
      rw [lookup, byId, List.foldl_append]
      exact Table.find?_put key
    rw [List.foldl_append, hlookup]
    have hput := Table.find?_put (t := rows.foldl Table.put table) (r := row) key
    rw [List.foldl_cons, List.foldl_nil, hput, ih]
    by_cases hkey : id row = key
    · simp [hkey]
    · simp [hkey]

theorem lookup_append (rows rows' : List T) (key : String) :
    lookup id (rows ++ rows') key = (lookup id rows' key).or (lookup id rows key) := by
  rw [lookup, byId, List.foldl_append]
  exact find?_foldl_put_or _ _ _

theorem lookup_eq_some {rows : List T} {key : String} {row : T}
    (h : lookup id rows key = some row) : row ∈ rows ∧ id row = key := by
  refine ⟨?_, Table.key_of_find? h⟩
  induction rows using List.reverseRecOn with
  | nil => cases h
  | append_singleton rows last ih =>
    rw [lookup_append] at h
    cases hlast : lookup id [last] key with
    | some found =>
      rw [hlast] at h
      cases h
      rw [lookup_singleton] at hlast
      split at hlast
      · cases hlast
        exact List.mem_append_right _ (List.mem_singleton_self _)
      · cases hlast
    | none =>
      rw [hlast] at h
      exact List.mem_append_left _ (ih h)

/-- What no lookup finds is not there. -/
theorem lookup_eq_none {rows : List T} {key : String} (h : lookup id rows key = none) :
    ∀ row ∈ rows, id row ≠ key := by
  induction rows using List.reverseRecOn with
  | nil => simp
  | append_singleton rows last ih =>
    rw [lookup_append, Option.or_eq_none_iff, lookup_singleton] at h
    intro row hrow
    rcases List.mem_append.mp hrow with hold | hnew
    · exact ih h.2 row hold
    · rw [List.mem_singleton.mp hnew]
      intro hkey
      rw [if_pos hkey] at h
      cases h.1

/-- Where ids are unique lookup is membership. -/
theorem lookup_of_mem {rows : List T} (h : (rows.map id).Nodup) {row : T} (hrow : row ∈ rows) :
    lookup id rows (id row) = some row := by
  induction rows using List.reverseRecOn with
  | nil => cases hrow
  | append_singleton rows last ih =>
    rw [List.map_append, List.nodup_append] at h
    obtain ⟨hnodup, _, hdisjoint⟩ := h
    rw [lookup_append, lookup_singleton]
    rcases List.mem_append.mp hrow with hold | hnew
    · have hne : id last ≠ id row := by
        intro heq
        exact hdisjoint (id row) (List.mem_map_of_mem hold) (id last) (by simp) heq.symm
      rw [if_neg hne]
      exact ih hnodup hold
    · rw [List.mem_singleton.mp hnew]
      simp

theorem mem_iff_lookup {rows : List T} (h : (rows.map id).Nodup) {row : T} :
    row ∈ rows ↔ lookup id rows (id row) = some row :=
  ⟨lookup_of_mem h, fun hlookup => (lookup_eq_some hlookup).1⟩

/-- Lists of rows with unique ids and the same lookups have the same rows. -/
theorem perm_of_lookup {rows rows' : List T} (h : (rows.map id).Nodup)
    (h' : (rows'.map id).Nodup) (hsame : ∀ key, lookup id rows key = lookup id rows' key) :
    rows.Perm rows' := by
  apply (List.perm_ext_iff_of_nodup (List.Nodup.of_map id h) (List.Nodup.of_map id h')).mpr
  intro row
  rw [mem_iff_lookup h, mem_iff_lookup h', hsame]

theorem lookup_congr {rows rows' : List T} (h : (rows.map id).Nodup)
    (h' : (rows'.map id).Nodup) (hmem : ∀ row, row ∈ rows ↔ row ∈ rows') (key : String) :
    lookup id rows key = lookup id rows' key := by
  apply Option.ext
  intro row
  constructor
  · intro hrow
    obtain ⟨hin, hkey⟩ := lookup_eq_some hrow
    rw [← hkey]
    exact lookup_of_mem h' ((hmem row).mp hin)
  · intro hrow
    obtain ⟨hin, hkey⟩ := lookup_eq_some hrow
    rw [← hkey]
    exact lookup_of_mem h ((hmem row).mpr hin)

theorem nodup_filter {rows : List T} (h : (rows.map id).Nodup) (p : T → Bool) :
    ((rows.filter p).map id).Nodup :=
  h.sublist (List.filter_sublist.map id)

theorem lookup_filter {rows : List T} (h : (rows.map id).Nodup) (p : T → Bool)
    (key : String) : lookup id (rows.filter p) key = (lookup id rows key).filter p := by
  apply Option.ext
  intro row
  rw [Option.filter_eq_some_iff]
  constructor
  · intro hrow
    obtain ⟨hin, hkey⟩ := lookup_eq_some hrow
    obtain ⟨hrows, hp⟩ := List.mem_filter.mp hin
    rw [← hkey]
    exact ⟨lookup_of_mem h hrows, hp⟩
  · intro ⟨hrow, hp⟩
    obtain ⟨hin, hkey⟩ := lookup_eq_some hrow
    rw [← hkey]
    exact lookup_of_mem (nodup_filter h p) (List.mem_filter.mpr ⟨hin, hp⟩)

theorem nodup_upsertById {current : List T} (h : (current.map id).Nodup)
    (updates : List T) : ((upsertById id current updates).map id).Nodup := by
  rw [upsertById]
  split
  · exact h
  · exact Table.unique _

/-- **Upserting is looking up in the updates first.** -/
theorem lookup_upsertById (current updates : List T) (key : String) :
    lookup id (upsertById id current updates) key =
      (lookup id updates key).or (lookup id current key) := by
  rw [upsertById]
  split
  · rename_i hempty
    rw [List.isEmpty_iff.mp hempty]
    rfl
  · refine Eq.trans ?_ (find?_foldl_put_or (byId id current) updates key)
    generalize updates.foldl Table.put (byId id current) = table
    apply Option.ext
    intro row
    rw [Table.find?_eq_some]
    constructor
    · intro hrow
      exact lookup_eq_some hrow
    · intro ⟨hin, hkey⟩
      rw [← hkey]
      exact lookup_of_mem table.unique hin

/-- Fewer ids, fewer rows. -/
theorem length_le_of_lookup {rows rows' : List T} (h : (rows.map id).Nodup)
    (hsub : ∀ key, (lookup id rows key).isSome → (lookup id rows' key).isSome) :
    rows.length ≤ rows'.length := by
  have hle : (rows.map id).length ≤ (rows'.map id).length := by
    apply (List.subperm_of_subset h _).length_le
    intro key hkey
    obtain ⟨row, hrow, rfl⟩ := List.mem_map.mp hkey
    have hsome := hsub (id row) (by rw [lookup_of_mem h hrow]; rfl)
    obtain ⟨row', hrow'⟩ := Option.isSome_iff_exists.mp hsome
    obtain ⟨hin, hid⟩ := lookup_eq_some hrow'
    rw [← hid]
    exact List.mem_map_of_mem hin
  simpa using hle

end Lookup

/-! ## Sorted slices -/

section Slice

variable {T : Type*} {id : T → String} (collation : Collation) (timestamp : T → String)

/-- The same rows, up to the order of rows that the sort does not tell apart. -/
def SameRows (before : T → T → Bool) (rows rows' : List T) : Prop :=
  rows = rows' ∨ (rows.Perm rows' ∧ rows.Pairwise (fun a b => before a b = true) ∧
    rows'.Pairwise fun a b => before a b = true)

theorem sorted_sortByTimestamp (rows : List T) :
    (sortByTimestamp collation timestamp (fun _ => none) rows).Pairwise
      fun a b => comesBefore collation timestamp (fun _ => none) a b = true := by
  apply List.pairwise_mergeSort
  · intro a b c hab hbc
    exact collation.trans _ _ _ hbc hab
  · intro a b
    exact collation.total _ _

variable (order : T → Option ℤ)

theorem perm_sortByTimestamp (rows : List T) :
    (sortByTimestamp collation timestamp order rows).Perm rows :=
  List.mergeSort_perm _ _

theorem nodup_sortByTimestamp {rows : List T} (h : (rows.map id).Nodup) :
    ((sortByTimestamp collation timestamp order rows).map id).Nodup :=
  ((perm_sortByTimestamp collation timestamp order rows).map id).nodup_iff.mpr h

theorem lookup_sortByTimestamp {rows : List T} (h : (rows.map id).Nodup) (key : String) :
    lookup id (sortByTimestamp collation timestamp order rows) key = lookup id rows key := by
  apply lookup_congr (nodup_sortByTimestamp collation timestamp order h) h
  intro row
  exact (perm_sortByTimestamp collation timestamp order rows).mem_iff

theorem mergeSlice_of_ne {current updates : List T} (h : updates ≠ []) :
    mergeSlice collation timestamp order id none current updates =
      sortByTimestamp collation timestamp order (upsertById id current updates) := by
  rw [mergeSlice, if_neg]
  rwa [List.isEmpty_iff]

theorem nodup_mergeSlice {current : List T} (h : (current.map id).Nodup)
    (updates : List T) :
    ((mergeSlice collation timestamp order id none current updates).map id).Nodup := by
  by_cases hempty : updates = []
  · rw [hempty]
    exact h
  · rw [mergeSlice_of_ne collation timestamp order hempty]
    exact nodup_sortByTimestamp collation timestamp order (nodup_upsertById h updates)

theorem lookup_mergeSlice {current : List T} (h : (current.map id).Nodup)
    (updates : List T) (key : String) :
    lookup id (mergeSlice collation timestamp order id none current updates) key =
      (lookup id updates key).or (lookup id current key) := by
  by_cases hempty : updates = []
  · rw [hempty]
    rfl
  · rw [mergeSlice_of_ne collation timestamp order hempty,
      lookup_sortByTimestamp collation timestamp order (nodup_upsertById h updates),
      lookup_upsertById]

/-- A slice that fits its limit loses nothing. -/
theorem mergeSlice_fits {current updates : List T} {limit : ℕ}
    (h : (upsertById id current updates).length ≤ limit) :
    mergeSlice collation timestamp order id (some limit) current updates =
      mergeSlice collation timestamp order id none current updates := by
  rw [mergeSlice, mergeSlice]
  split
  · rfl
  · apply List.take_of_length_le
    rw [(perm_sortByTimestamp collation timestamp order _).length_eq]
    exact h

/-- **What two deltas leave under an id.** The removals of the second take nothing back
of the first, so they may as well come first. -/
theorem lookup_conflated {current : List T} (hnodup : (current.map id).Nodup)
    {first second : List T} {kept kept' : T → Bool}
    (hsent : ∀ row ∈ first, kept' row = false → ∃ row' ∈ second, id row' = id row)
    (key : String) :
    (lookup id second key).or
        (((lookup id first key).or (lookup id (current.filter kept) key)).filter kept') =
      (lookup id (first ++ second) key).or
        (lookup id (current.filter fun row => kept row && kept' row) key) := by
  rw [lookup_append]
  cases hsecond : lookup id second key with
  | some row => rfl
  | none =>
    cases hfirst : lookup id first key with
    | some row =>
      obtain ⟨hin, hkey⟩ := lookup_eq_some hfirst
      have hkept : kept' row = true := by
        by_contra hgone
        rw [Bool.not_eq_true] at hgone
        obtain ⟨row', hrow', hid⟩ := hsent row hin hgone
        exact lookup_eq_none hsecond row' hrow' (hid.trans hkey)
      simp [hkept]
    | none =>
      rw [lookup_filter hnodup, lookup_filter hnodup]
      cases lookup id current key with
      | none => rfl
      | some row =>
        simp

/-- **A sorted slice without a limit.** -/
theorem mergeSlice_conflates {current : List T} (hnodup : (current.map id).Nodup)
    (first second : List T) (kept kept' : T → Bool)
    (hsent : ∀ row ∈ first, kept' row = false → ∃ row' ∈ second, id row' = id row) :
    SameRows (comesBefore collation timestamp (fun _ => none))
      (mergeSlice collation timestamp (fun _ => none) id none
        ((mergeSlice collation timestamp (fun _ => none) id none (current.filter kept)
          first).filter kept') second)
      (mergeSlice collation timestamp (fun _ => none) id none
        (current.filter fun row => kept row && kept' row) (first ++ second)) := by
  have hstart := nodup_filter hnodup kept
  have hstep := nodup_mergeSlice collation timestamp (fun _ => none) hstart first
  have hboth := nodup_filter hnodup fun row => kept row && kept' row
  by_cases hfirst : first = []
  · left
    rw [hfirst]
    have hfilter : (current.filter kept).filter kept' =
        current.filter fun row => kept row && kept' row := by
      rw [List.filter_filter]
      simp [Bool.and_comm]
    rw [← hfilter]
    rfl
  right
  have hne : first ++ second ≠ [] := by
    intro hnil
    exact hfirst (List.append_eq_nil_iff.mp hnil).1
  refine ⟨?_, ?_, ?_⟩
  · refine @perm_of_lookup T id _ _ ?_ ?_ ?_
    · exact nodup_mergeSlice collation timestamp _ (nodup_filter hstep kept') second
    · exact nodup_mergeSlice collation timestamp _ hboth _
    · intro key
      rw [lookup_mergeSlice _ _ _ (nodup_filter hstep kept'), lookup_filter hstep,
        lookup_mergeSlice _ _ _ hstart, lookup_mergeSlice _ _ _ hboth]
      exact lookup_conflated hnodup hsent key
  · by_cases hsecond : second = []
    · rw [hsecond, mergeSlice_of_ne collation timestamp _ hfirst]
      exact (sorted_sortByTimestamp collation timestamp _).filter _
    · rw [mergeSlice_of_ne collation timestamp _ hsecond]
      exact sorted_sortByTimestamp collation timestamp _
  · rw [mergeSlice_of_ne collation timestamp _ hne]
    exact sorted_sortByTimestamp collation timestamp _

end Slice

/-! ## Projects -/

def revision (project : ProjectSummary) : ℕ := (project.overview.map (·.revision)).getD 0

/-- Against a project that has been merged already a project with no older overview comes
out as against the one before. -/
theorem mergeProjectSummary_merged (existing : Option ProjectSummary)
    {first second : ProjectSummary} (h : revision first ≤ revision second) :
    mergeProjectSummary (some (mergeProjectSummary existing first)) second =
      mergeProjectSummary existing second := by
  rw [revision, revision] at h
  cases hexisting : existing.bind (·.overview) with
  | none =>
    simp only [mergeProjectSummary, hexisting, Option.bind_some]
    cases hfirst : first.overview with
    | none => rfl
    | some overview =>
      rw [hfirst, Option.map_some, Option.getD_some] at h
      dsimp only
      rw [if_neg (by omega)]
  | some overview =>
    simp only [mergeProjectSummary, hexisting, Option.bind_some]
    by_cases holder : (first.overview.map (·.revision)).getD 0 < overview.revision
    · rw [if_pos holder]
    · rw [if_neg holder]
      rw [if_neg (show ¬ (second.overview.map (·.revision)).getD 0 < overview.revision by omega)]
      cases hfirst : first.overview with
      | none => rfl
      | some overview' =>
        rw [hfirst, Option.map_some, Option.getD_some] at h
        dsimp only
        rw [if_neg (by omega)]

theorem id_mergeProjectSummary (existing : Option ProjectSummary) (incoming : ProjectSummary) :
    (mergeProjectSummary existing incoming).id = incoming.id := by
  rw [mergeProjectSummary]
  split
  · split <;> rfl
  · rfl

/-- The last of the mapped rows is the image of the last row. -/
theorem lookup_map {T : Type*} {id : T → String} (f : T → T) (hf : ∀ row, id (f row) = id row)
    (rows : List T) (key : String) :
    lookup id (rows.map f) key = (lookup id rows key).map f := by
  induction rows using List.reverseRecOn with
  | nil => rfl
  | append_singleton rows row ih =>
    rw [List.map_append, List.map_cons, List.map_nil, lookup_append, lookup_append, ih,
      lookup_singleton, lookup_singleton, hf]
    by_cases hkey : id row = key
    · simp [hkey]
    · simp [hkey]

/-- **The projects.** An overview of the second delta is no older than that of the
first. -/
theorem mergeProjects_conflates (collation : Collation) {current : List ProjectSummary}
    (hnodup : (current.map (·.id)).Nodup) {first second : List ProjectSummary}
    (hnewer : ∀ project ∈ first, ∀ project' ∈ second, project.id = project'.id →
      revision project ≤ revision project') :
    SameRows (comesBefore collation (fun project => project.latestActivityAt.getD "")
        (fun _ => none))
      (mergeProjects collation (mergeProjects collation current first) second)
      (mergeProjects collation current (first ++ second)) := by
  have hsecond : (second.map fun project => mergeProjectSummary
      ((byId (·.id) (mergeProjects collation current first)).find? project.id) project) =
      second.map fun project =>
        mergeProjectSummary ((byId (·.id) current).find? project.id) project := by
    apply List.map_congr_left
    intro project hproject
    have hfind := lookup_mergeSlice collation
      (fun project : ProjectSummary => project.latestActivityAt.getD "") (fun _ => none) hnodup
      (first.map fun project =>
        mergeProjectSummary ((byId (·.id) current).find? project.id) project) project.id
    rw [lookup_map _ (fun _ => id_mergeProjectSummary _ _)] at hfind
    rw [show (byId (·.id) (mergeProjects collation current first)).find? project.id = _ from
      hfind]
    cases hfirst : lookup (fun project : ProjectSummary => project.id) first project.id with
    | none => rfl
    | some project' =>
      obtain ⟨hin, hid⟩ := lookup_eq_some hfirst
      rw [Option.map_some, hid]
      exact mergeProjectSummary_merged _ (hnewer project' hin project hproject hid)
  have hslice := mergeSlice_conflates collation
    (fun project : ProjectSummary => project.latestActivityAt.getD "") hnodup
    (first.map fun project =>
      mergeProjectSummary ((byId (·.id) current).find? project.id) project)
    (second.map fun project =>
      mergeProjectSummary ((byId (·.id) current).find? project.id) project)
    (fun _ => true) (fun _ => true) (by simp)
  simp only [List.filter_true, Bool.and_true] at hslice
  rw [mergeProjects, hsecond, mergeProjects, mergeProjects, List.map_append]
  exact hslice

/-! ## Rows with cursors -/

section Cursors

variable {T : Type*} {id : T → String} (collation : Collation) (timestamp : T → String)
  {order : T → Option ℤ}

/-- Rows told apart by their cursors: all versions of a row have its cursor. -/
structure Cursored (id : T → String) (order : T → Option ℤ) (pool : List T) : Prop where
  some : ∀ row ∈ pool, (order row).isSome
  apart : ∀ row ∈ pool, ∀ row' ∈ pool, id row = id row' ↔ order row = order row'

/-- Strictly descending by cursor. -/
def Descending (order : T → Option ℤ) (rows : List T) : Prop :=
  rows.Pairwise fun a b => (order b).getD 0 < (order a).getD 0

theorem Cursored.cursor_ne {pool : List T} (h : Cursored id order pool) {row row' : T}
    (hrow : row ∈ pool) (hrow' : row' ∈ pool) (hne : id row ≠ id row') :
    (order row).getD 0 ≠ (order row').getD 0 := by
  have hsome := Option.isSome_iff_exists.mp (h.some row hrow)
  have hsome' := Option.isSome_iff_exists.mp (h.some row' hrow')
  have hapart := fun heq => hne ((h.apart row hrow row' hrow').mpr heq)
  obtain ⟨cursor, hcursor⟩ := hsome
  obtain ⟨cursor', hcursor'⟩ := hsome'
  rw [hcursor, hcursor'] at hapart ⊢
  intro heq
  exact hapart (congrArg Option.some heq)

/-- Rows with cursors are sorted by them. -/
theorem descending_sortByTimestamp {pool rows : List T} (h : Cursored id order pool)
    (hpool : ∀ row ∈ rows, row ∈ pool) (hnodup : (rows.map id).Nodup) :
    Descending order (sortByTimestamp collation timestamp order rows) := by
  have hinj : ∀ row ∈ rows, ∀ row' ∈ rows, row ≠ row' → id row ≠ id row' := by
    intro row hrow row' hrow' hne heq
    exact hne (List.inj_on_of_nodup_map hnodup hrow hrow' heq)
  have hcompare : ∀ a ∈ rows, ∀ b ∈ rows, comesBefore collation timestamp order a b =
      decide ((order b).getD 0 ≤ (order a).getD 0) := by
    intro a ha b hb
    obtain ⟨cursor, hcursor⟩ := Option.isSome_iff_exists.mp (h.some a (hpool a ha))
    obtain ⟨cursor', hcursor'⟩ := Option.isSome_iff_exists.mp (h.some b (hpool b hb))
    rw [comesBefore, hcursor, hcursor']
    dsimp only [Option.getD_some]
    by_cases heq : a = b
    · rw [heq, hcursor'] at hcursor
      cases hcursor
      have hrefl := collation.total (timestamp b) (timestamp b)
      rw [heq]
      simpa using hrefl
    · have hne := h.cursor_ne (hpool a ha) (hpool b hb) (hinj a ha b hb heq)
      rw [hcursor, hcursor', Option.getD_some, Option.getD_some] at hne
      rw [if_pos hne]
  have hsort : sortByTimestamp collation timestamp order rows =
      rows.mergeSort fun a b => decide ((order b).getD 0 ≤ (order a).getD 0) := by
    have hmap := List.map_mergeSort (f := fun row : T => row) hcompare
    simpa [sortByTimestamp] using hmap
  have hpairwise : (rows.mergeSort fun a b =>
      decide ((order b).getD 0 ≤ (order a).getD 0)).Pairwise
        fun a b => decide ((order b).getD 0 ≤ (order a).getD 0) = true := by
    apply List.pairwise_mergeSort
    · intro a b c hab hbc
      rw [decide_eq_true_eq] at hab hbc ⊢
      omega
    · intro a b
      rw [Bool.or_eq_true, decide_eq_true_eq, decide_eq_true_eq]
      omega
  have hids := nodup_sortByTimestamp collation timestamp order hnodup
  rw [← hsort] at *
  apply List.Pairwise.imp_of_mem _ (hpairwise.and (List.Pairwise.of_map id (fun _ _ h => h) hids))
  intro a b ha hb ⟨hle, hne⟩
  rw [decide_eq_true_eq] at hle
  have hperm := perm_sortByTimestamp collation timestamp order rows
  have hne' := h.cursor_ne (hpool a (hperm.mem_iff.mp ha)) (hpool b (hperm.mem_iff.mp hb)) hne
  omega

/-- Descending rows are determined by what is under each id. -/
theorem eq_of_descending {rows rows' : List T} (h : Descending order rows)
    (h' : Descending order rows') (hnodup : (rows.map id).Nodup)
    (hnodup' : (rows'.map id).Nodup) (hsame : ∀ key, lookup id rows key = lookup id rows' key) :
    rows = rows' := by
  apply List.Perm.eq_of_pairwise _ h h' (perm_of_lookup hnodup hnodup' hsame)
  omega

end Cursors

/-! ## Slices with a limit -/

section Limit

variable {T : Type*} {id : T → String} (collation : Collation) (timestamp : T → String)
  (order : T → Option ℤ)

/-- Where the rows of a slice and of both deltas fit the limit no merge cuts. -/
theorem mergeSlice_limit {current : List T} (hnodup : (current.map id).Nodup)
    {first second : List T} {limit : ℕ}
    (hfits : (upsertById id current (first ++ second)).length ≤ limit) :
    mergeSlice collation timestamp order id (some limit)
        (mergeSlice collation timestamp order id (some limit) current first) second =
      mergeSlice collation timestamp order id none
        (mergeSlice collation timestamp order id none current first) second ∧
    mergeSlice collation timestamp order id (some limit) current (first ++ second) =
      mergeSlice collation timestamp order id none current (first ++ second) := by
  have hstep := nodup_mergeSlice collation timestamp order hnodup first
  have hfirst : (upsertById id current first).length ≤ limit := by
    refine le_trans (length_le_of_lookup (nodup_upsertById hnodup first) ?_) hfits
    intro key hkey
    rw [lookup_upsertById, Option.isSome_or, Bool.or_eq_true] at hkey ⊢
    rw [lookup_append, Option.isSome_or, Bool.or_eq_true]
    exact hkey.imp_left Or.inr
  have hsecond : (upsertById id (mergeSlice collation timestamp order id none current first)
      second).length ≤ limit := by
    refine le_trans (length_le_of_lookup (nodup_upsertById hstep second) ?_) hfits
    intro key hkey
    rw [lookup_upsertById, lookup_mergeSlice _ _ _ hnodup] at hkey
    rw [lookup_upsertById, lookup_append]
    rw [← Option.or_assoc] at hkey
    exact hkey
  rw [mergeSlice_fits _ _ _ hfirst, mergeSlice_fits _ _ _ hsecond, mergeSlice_fits _ _ _ hfits]
  exact ⟨rfl, rfl⟩

/-- **A slice ordered by timestamp.** -/
theorem mergeSlice_limit_conflates {current : List T} (hnodup : (current.map id).Nodup)
    {first second : List T} {limit : ℕ}
    (hfits : (upsertById id current (first ++ second)).length ≤ limit) :
    SameRows (comesBefore collation timestamp (fun _ => none))
      (mergeSlice collation timestamp (fun _ => none) id (some limit)
        (mergeSlice collation timestamp (fun _ => none) id (some limit) current first) second)
      (mergeSlice collation timestamp (fun _ => none) id (some limit) current
        (first ++ second)) := by
  obtain ⟨hparts, hwhole⟩ := mergeSlice_limit collation timestamp (fun _ => none) hnodup hfits
  have hslice := mergeSlice_conflates collation timestamp hnodup first second
    (fun _ => true) (fun _ => true) (by simp)
  simp only [List.filter_true, Bool.and_true] at hslice
  rw [hparts, hwhole]
  exact hslice

variable {order}

/-- The cut of a slice that has lost some rows below the cut. -/
theorem take_eq_take {rows rows' : List T} (h : Descending order rows)
    (h' : Descending order rows') (hnodup : (rows.map id).Nodup)
    (hnodup' : (rows'.map id).Nodup) (hsub : ∀ row ∈ rows, row ∈ rows') {limit : ℕ}
    (hcut : ∀ row ∈ rows'.take limit, row ∈ rows) : rows.take limit = rows'.take limit := by
  classical
  have hsplit := List.take_append_drop limit rows'
  have hrest : rows = rows'.take limit ++
      (rows'.drop limit).filter fun row => decide (row ∈ rows) := by
    have hsublist : (rows'.take limit ++
        (rows'.drop limit).filter fun row => decide (row ∈ rows)).Sublist rows' := by
      conv_rhs => rw [← hsplit]
      exact (List.Sublist.refl _).append List.filter_sublist
    apply eq_of_descending h (h'.sublist hsublist) hnodup (hnodup'.sublist (hsublist.map id))
    apply lookup_congr hnodup (hnodup'.sublist (hsublist.map id))
    intro row
    rw [List.mem_append, List.mem_filter, decide_eq_true_eq]
    constructor
    · intro hrow
      have hin := hsub row hrow
      rw [← hsplit, List.mem_append] at hin
      exact hin.imp_right fun hdrop => ⟨hdrop, hrow⟩
    · rintro (htake | ⟨_, hrow⟩)
      · exact hcut row htake
      · exact hrow
  by_cases hlong : limit ≤ rows'.length
  · have hlength : (rows'.take limit).length = limit := by
      rw [List.length_take]
      omega
    conv_lhs => rw [hrest, List.take_append_of_le_length hlength.ge, List.take_take, min_self]
  · rw [List.drop_of_length_le (by omega), List.filter_nil, List.append_nil] at hrest
    conv_lhs => rw [hrest, List.take_take, min_self]

/-- Rows that come before a row of the cut are few. -/
theorem length_lt_of_mem_take {rows above : List T} (h : Descending order rows) {limit : ℕ}
    {row : T} (hrow : row ∈ rows.take limit) (hnodup : (above.map id).Nodup)
    (habove : ∀ row' ∈ above, ∃ row'' ∈ rows, id row'' = id row' ∧
      (order row).getD 0 < (order row'').getD 0) : above.length < limit := by
  obtain ⟨before, after, hcut⟩ := List.append_of_mem hrow
  have hbefore : before.length < limit := by
    have hlength := congrArg List.length hcut
    have hle := List.length_take_le limit rows
    simp only [List.length_append, List.length_cons] at hlength
    omega
  have hrows : rows = before ++ row :: (after ++ rows.drop limit) := by
    conv_lhs => rw [← List.take_append_drop limit rows, hcut, List.append_assoc, List.cons_append]
  have hids : above.map id ⊆ before.map id := by
    intro key hkey
    obtain ⟨row', hrow', rfl⟩ := List.mem_map.mp hkey
    obtain ⟨row'', hrow'', hid, hlt⟩ := habove row' hrow'
    rw [← hid]
    rw [hrows] at hrow'' h
    have hbelow := (List.pairwise_cons.mp (List.pairwise_append.mp h).2.1).1
    rcases List.mem_append.mp hrow'' with hin | hin
    · exact List.mem_map_of_mem hin
    · rcases List.mem_cons.mp hin with heq | hlater
      · rw [heq] at hlt
        omega
      · have hgt := hbelow row'' hlater
        omega
  have hle := (List.subperm_of_subset hnodup hids).length_le
  rw [List.length_map, List.length_map] at hle
  omega

/-- Rows beyond the cut stay beyond it when rows are upserted, so they may as well be cut
before. -/
theorem take_upsert_take {pool rows updates : List T} (hcursors : Cursored id order pool)
    (hrows : ∀ row ∈ rows, row ∈ pool) (hupdates : ∀ row ∈ updates, row ∈ pool)
    (h : Descending order rows) (hnodup : (rows.map id).Nodup) (limit : ℕ) :
    (sortByTimestamp collation timestamp order
        (upsertById id (rows.take limit) updates)).take limit =
      (sortByTimestamp collation timestamp order (upsertById id rows updates)).take limit := by
  have hcut : ((rows.take limit).map id).Nodup :=
    hnodup.sublist ((List.take_sublist limit rows).map id)
  have hpool : ∀ {some : List T}, (∀ row ∈ some, row ∈ rows) → (some.map id).Nodup →
      ∀ row ∈ upsertById id some updates, row ∈ pool := by
    intro some hsome hids row hrow
    have hlookup := lookup_of_mem (nodup_upsertById hids updates) hrow
    rw [lookup_upsertById, Option.or_eq_some_iff] at hlookup
    rcases hlookup with hnew | ⟨_, hold⟩
    · exact hupdates row (lookup_eq_some hnew).1
    · exact hrows row (hsome row (lookup_eq_some hold).1)
  have hin := hpool (fun row hrow => List.mem_of_mem_take hrow) hcut
  have hin' := hpool (fun row hrow => hrow) hnodup
  have hids := nodup_sortByTimestamp collation timestamp order (nodup_upsertById hcut updates)
  have hids' := nodup_sortByTimestamp collation timestamp order (nodup_upsertById hnodup updates)
  have hlookup : ∀ key, lookup id (sortByTimestamp collation timestamp order
      (upsertById id rows updates)) key = (lookup id updates key).or (lookup id rows key) := by
    intro key
    rw [lookup_sortByTimestamp _ _ _ (nodup_upsertById hnodup updates), lookup_upsertById]
  have hlookupCut : ∀ key, lookup id (sortByTimestamp collation timestamp order
      (upsertById id (rows.take limit) updates)) key =
        (lookup id updates key).or (lookup id (rows.take limit) key) := by
    intro key
    rw [lookup_sortByTimestamp _ _ _ (nodup_upsertById hcut updates), lookup_upsertById]
  have hdescending := descending_sortByTimestamp collation timestamp hcursors hin'
    (nodup_upsertById hnodup updates)
  apply take_eq_take (descending_sortByTimestamp collation timestamp hcursors hin
    (nodup_upsertById hcut updates)) hdescending hids hids'
  · intro row hrow
    rw [mem_iff_lookup hids, hlookupCut, Option.or_eq_some_iff] at hrow
    rw [mem_iff_lookup hids', hlookup]
    rcases hrow with hnew | ⟨hnone, hold⟩
    · rw [hnew]
      rfl
    · rw [hnone]
      exact lookup_of_mem hnodup (List.mem_of_mem_take (lookup_eq_some hold).1)
  · intro row hrow
    have hfound := lookup_of_mem hids' (List.mem_of_mem_take hrow)
    rw [hlookup, Option.or_eq_some_iff] at hfound
    rw [mem_iff_lookup hids, hlookupCut]
    rcases hfound with hnew | ⟨hnone, hold⟩
    · rw [hnew]
      rfl
    rw [hnone]
    apply lookup_of_mem hcut
    -- A row beyond the cut has a whole cut of rows before it.
    by_contra hbeyond
    have hold := (lookup_eq_some hold).1
    have hdrop : row ∈ rows.drop limit := by
      rw [← List.take_append_drop limit rows, List.mem_append] at hold
      exact hold.resolve_left hbeyond
    have hfull : (rows.take limit).length = limit := by
      have hlt := List.length_pos_of_mem hdrop
      rw [List.length_drop] at hlt
      rw [List.length_take]
      omega
    have hfew := length_lt_of_mem_take hdescending hrow hcut (by
      intro row' hrow'
      have hgt : (order row).getD 0 < (order row').getD 0 := by
        rw [← List.take_append_drop limit rows] at h
        exact (List.pairwise_append.mp h).2.2 row' hrow' row hdrop
      have hsome : ∃ row'', lookup id (sortByTimestamp collation timestamp order
          (upsertById id rows updates)) (id row') = some row'' := by
        rw [hlookup, lookup_of_mem hnodup (List.mem_of_mem_take hrow')]
        cases lookup id updates (id row') with
        | none => exact ⟨_, rfl⟩
        | some row'' => exact ⟨_, rfl⟩
      obtain ⟨row'', hrow''⟩ := hsome
      obtain ⟨hmem, hid⟩ := lookup_eq_some hrow''
      have hpool'' := hin' row'' ((perm_sortByTimestamp _ _ _ _).mem_iff.mp hmem)
      have hcursor := (hcursors.apart row'' hpool'' row'
        (hrows row' (List.mem_of_mem_take hrow'))).mp hid
      rw [← hcursor] at hgt
      exact ⟨row'', hmem, hid, hgt⟩)
    omega

/-- **A slice ordered by cursor.** -/
theorem mergeSlice_cursor_conflates {current first second : List T}
    (hcursors : Cursored id order (current ++ first ++ second))
    (hnodup : (current.map id).Nodup) (limit : ℕ) :
    mergeSlice collation timestamp order id (some limit)
        (mergeSlice collation timestamp order id (some limit) current first) second =
      mergeSlice collation timestamp order id (some limit) current (first ++ second) := by
  by_cases hfirst : first = []
  · rw [hfirst]
    rfl
  by_cases hsecond : second = []
  · rw [hsecond, List.append_nil]
    rfl
  have hne : first ++ second ≠ [] := by
    intro hnil
    exact hfirst (List.append_eq_nil_iff.mp hnil).1
  have hstep := nodup_upsertById hnodup first
  have hpool : ∀ {updates : List T}, (∀ row ∈ updates, row ∈ first ++ second) →
      ∀ row ∈ upsertById id current updates, row ∈ current ++ first ++ second := by
    intro updates hupdates row hrow
    have hlookup := lookup_of_mem (nodup_upsertById hnodup updates) hrow
    rw [lookup_upsertById, Option.or_eq_some_iff] at hlookup
    rw [List.append_assoc]
    rcases hlookup with hnew | ⟨_, hold⟩
    · exact List.mem_append_right _ (hupdates row (lookup_eq_some hnew).1)
    · exact List.mem_append_left _ (lookup_eq_some hold).1
  have hsorted := descending_sortByTimestamp collation timestamp hcursors
    (hpool fun row hrow => List.mem_append_left _ hrow) hstep
  have hids := nodup_sortByTimestamp collation timestamp order hstep
  have hperm := perm_sortByTimestamp collation timestamp order (upsertById id current first)
  have hcut := take_upsert_take collation timestamp hcursors
    (fun row hrow => hpool (fun row hrow => List.mem_append_left _ hrow) row
      (hperm.mem_iff.mp hrow))
    (fun row (hrow : row ∈ second) => List.mem_append_right _ hrow) hsorted hids limit
  have hsame : sortByTimestamp collation timestamp order
      (upsertById id (sortByTimestamp collation timestamp order (upsertById id current first))
        second) =
      sortByTimestamp collation timestamp order (upsertById id current (first ++ second)) := by
    have hwhole := nodup_upsertById hnodup (first ++ second)
    have hparts := nodup_upsertById hids second
    have hlookup : ∀ key, lookup id (upsertById id
        (sortByTimestamp collation timestamp order (upsertById id current first)) second) key =
          lookup id (upsertById id current (first ++ second)) key := by
      intro key
      rw [lookup_upsertById, lookup_sortByTimestamp _ _ _ hstep, lookup_upsertById,
        lookup_upsertById, lookup_append, Option.or_assoc]
    apply eq_of_descending
    · apply descending_sortByTimestamp collation timestamp hcursors _ hparts
      intro row hrow
      exact hpool (fun _ h => h) row ((perm_of_lookup hparts hwhole hlookup).mem_iff.mp hrow)
    · exact descending_sortByTimestamp collation timestamp hcursors (hpool fun _ h => h) hwhole
    · exact nodup_sortByTimestamp _ _ _ hparts
    · exact nodup_sortByTimestamp _ _ _ hwhole
    · intro key
      rw [lookup_sortByTimestamp _ _ _ hparts, lookup_sortByTimestamp _ _ _ hwhole]
      exact hlookup key
  have hif : ∀ {updates rows : List T}, updates ≠ [] →
      mergeSlice collation timestamp order id (some limit) rows updates =
        (sortByTimestamp collation timestamp order (upsertById id rows updates)).take limit := by
    intro updates rows hupdates
    rw [mergeSlice, if_neg]
    rwa [List.isEmpty_iff]
  rw [hif hfirst, hif hsecond, hif hne, hcut, hsame]

end Limit

end Argmax.Renderer
