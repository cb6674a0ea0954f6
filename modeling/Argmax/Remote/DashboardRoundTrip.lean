import Argmax.Remote.DashboardChanges
import Mathlib.Data.List.Induction

/-!
# The client holds what the host sent

A client that applies the answer to the snapshot it named holds the new snapshot: the
rows of every collection in their order, and every other field. Row by row this is
`applyRows_diffRows` and `mergeRows_diffRows`; key by key it is `applyDiff_eq`.

The host answers with a difference only for a digest it holds, and a digest is held with
the snapshot it is of (`baselines_held`).
-/

namespace Argmax.Remote.DashboardChanges

open Argmax.Lib
open Std (ExtTreeMap)

/-! ## Rows with ids -/

/-- Each row is listed under its id. -/
def Labelled (keyed : List (String × Json)) : Prop := ∀ row ∈ keyed, rowId row.2 = some row.1

theorem identified_eq_some {rows : List Json} {keyed : List (String × Json)}
    (h : identified rows = some keyed) : keyed.map (·.2) = rows ∧ Labelled keyed := by
  induction rows generalizing keyed with
  | nil =>
    cases h
    exact ⟨rfl, by simp [Labelled]⟩
  | cons row rows ih =>
    simp only [identified, Option.bind_eq_some_iff, Option.map_eq_some_iff] at h
    obtain ⟨id, hid, rest, hrest, rfl⟩ := h
    have hrows := ih hrest
    refine ⟨by simp [hrows.1], ?_⟩
    intro r hr
    rcases List.mem_cons.mp hr with rfl | hr
    · exact hid
    · exact hrows.2 r hr

/-- Rows listed under their ids are found to have these ids. -/
theorem identified_map_snd {keyed : List (String × Json)} (h : Labelled keyed) :
    identified (keyed.map (·.2)) = some keyed := by
  induction keyed with
  | nil => rfl
  | cons row keyed ih =>
    have hrow := h row (by simp)
    have hkeyed := ih fun r hr => h r (by simp [hr])
    simp [identified, hrow, hkeyed]

/-- A value has keyed rows when it is an array of rows with ids of their own. -/
theorem keyedRows_eq_some {value : Json} {keyed : List (String × Json)}
    (h : keyedRows value = some keyed) :
    value.asArray = some (keyed.map (·.2)) ∧ Labelled keyed ∧ (keyed.map (·.1)).Nodup := by
  simp only [keyedRows, Option.bind_eq_some_iff] at h
  obtain ⟨rows, hvalue, keyed', hkeyed, hif⟩ := h
  split at hif
  · rename_i hnodup
    cases hif
    have hrows := identified_eq_some hkeyed
    exact ⟨hrows.1 ▸ hvalue, hrows.2, hnodup⟩
  · cases hif

theorem eq_array_of_asArray {value : Json} {rows : List Json} (h : value.asArray = some rows) :
    value = .array rows := by
  cases value <;> simp_all [Json.asArray]

/-! ## One collection -/

section Rows

variable {rows before : List (String × Json)}

/-- The rows `diff_rows` sends. -/
abbrev changedRows (rows before : List (String × Json)) : List (String × Json) :=
  rows.filter fun row => decide ((byId before).find? row.1 ≠ some row)

/-- **After the upserts each row is found under its id**, whether it was sent or was the
same before. -/
theorem find?_byId_changedRows (hnodup : (rows.map (·.1)).Nodup) {row : String × Json}
    (hrow : row ∈ rows) :
    (byId (before ++ changedRows rows before)).find? row.1 = some row := by
  let table : Table (Prod.fst : String × Json → String) := ⟨rows, hnodup⟩
  have hsent : ∀ r ∈ changedRows rows before, r ∈ table := fun r hr => List.mem_of_mem_filter hr
  have hfind := Table.find?_foldl_put (t := byId before) hsent row.1
  rw [byId, List.foldl_append]
  refine hfind.trans ?_
  by_cases hmem : row.1 ∈ (changedRows rows before).map Prod.fst
  · rw [if_pos hmem]
    exact Table.find?_of_mem (show row ∈ table from hrow)
  · rw [if_neg hmem]
    -- A row that is not sent stands in the rows before.
    by_contra hne
    exact hmem (List.mem_map.mpr ⟨row, List.mem_filter.mpr ⟨hrow, by simpa using hne⟩, rfl⟩)

/-- Rows looked up one after another. -/
theorem mapM_find? {table : Table (Prod.fst : String × Json → String)}
    (h : ∀ row ∈ rows, table.find? row.1 = some row) :
    ((rows.map (·.1)).mapM fun id => (table.find? id).map (·.2)) = some (rows.map (·.2)) := by
  induction rows with
  | nil => rfl
  | cons row rows ih =>
    have hrow := h row (by simp)
    have hrows := ih fun r hr => h r (by simp [hr])
    simp [hrow, hrows]

/-- **The order is the order of the rows**, whether it was sent or is the old one without
the rows that are gone. -/
theorem order_diffRows :
    (diffRows rows before).order.getD ((before.map (·.1)).filter fun id =>
      !(diffRows rows before).remove.contains id) = rows.map (·.1) := by
  have hkept : ((before.map (·.1)).filter fun id =>
        !(diffRows rows before).remove.contains id) =
      (before.map (·.1)).filter fun id => (rows.map (·.1)).contains id := by
    refine List.filter_congr fun id hid => ?_
    cases h : (rows.map (·.1)).contains id <;> simp_all [diffRows]
  rw [hkept]
  by_cases h : rows.map (·.1) = (before.map (·.1)).filter fun id => (rows.map (·.1)).contains id
  · simp only [diffRows]
    rw [if_neg (not_not.mpr h), Option.getD_none, ← h]
  · simp only [diffRows]
    rw [if_pos h, Option.getD_some]

theorem labelled_changedRows (h : Labelled rows) : Labelled (changedRows rows before) :=
  fun row hrow => h row (List.mem_of_mem_filter hrow)

/-- Applying the changes to the rows before gives the rows. -/
theorem applyRows_diffRows (hbefore : Labelled before) (hrows : Labelled rows)
    (hnodup : (rows.map (·.1)).Nodup) :
    applyRows (before.map (·.2)) (diffRows rows before) = some (rows.map (·.2)) := by
  have hsent : identified (diffRows rows before).upsert = some (changedRows rows before) :=
    identified_map_snd (labelled_changedRows hrows)
  simp only [applyRows, identified_map_snd hbefore, hsent, Option.bind_some, order_diffRows]
  exact mapM_find? fun row hrow => find?_byId_changedRows hnodup hrow

/-- The phone accepts the changes, and they give the rows. -/
theorem mergeRows_diffRows (hbefore : Labelled before) (hrows : Labelled rows)
    (hnodup : (rows.map (·.1)).Nodup) :
    mergeRows (before.map (·.2)) (diffRows rows before) = some (rows.map (·.2)) := by
  have hsent : identified (diffRows rows before).upsert = some (changedRows rows before) :=
    identified_map_snd (labelled_changedRows hrows)
  have hplaces : ((changedRows rows before).map (·.1)).all (rows.map (·.1)).contains := by
    rw [List.all_eq_true]
    intro id hid
    obtain ⟨row, hrow, rfl⟩ := List.mem_map.mp hid
    exact List.contains_iff_mem.mpr (List.mem_map_of_mem (List.mem_of_mem_filter hrow))
  simp only [mergeRows, identified_map_snd hbefore, hsent, Option.bind_some, order_diffRows]
  rw [if_pos ⟨hnodup, hplaces⟩]
  exact mapM_find? fun row hrow => find?_byId_changedRows hnodup hrow

end Rows

/-! ## The parts of a difference, key by key -/

theorem getElem?_erase (map : JsonMap) (gone key : String) :
    (map.erase gone)[key]? = if gone = key then none else map[key]? := by
  simp only [ExtTreeMap.getElem?_erase, compare_eq_iff_eq]

theorem getElem?_insert (map : JsonMap) (put : String) (value : Json) (key : String) :
    (map.insert put value)[key]? = if put = key then some value else map[key]? := by
  simp only [ExtTreeMap.getElem?_insert, compare_eq_iff_eq]

theorem getElem?_foldl_erase (keys : List String) (map : JsonMap) (key : String) :
    (keys.foldl (fun next key => next.erase key) map)[key]? =
      if key ∈ keys then none else map[key]? := by
  induction keys generalizing map with
  | nil => simp
  | cons k keys ih =>
    rw [List.foldl_cons, ih, getElem?_erase]
    by_cases hk : key = k
    · subst hk
      simp
    · simp [hk, Ne.symm hk]

/-- Entries of one map, inserted into another. -/
theorem getElem?_foldl_insert {snapshot : JsonMap} {entries : List (String × Json)}
    (h : ∀ entry ∈ entries, snapshot[entry.1]? = some entry.2) (map : JsonMap) (key : String) :
    (entries.foldl (fun next entry => next.insert entry.1 entry.2) map)[key]? =
      if key ∈ entries.map (·.1) then snapshot[key]? else map[key]? := by
  induction entries generalizing map with
  | nil => simp
  | cons entry entries ih =>
    obtain ⟨hentry, hentries⟩ := List.forall_mem_cons.mp h
    rw [List.foldl_cons, ih hentries, getElem?_insert]
    by_cases hkeys : key ∈ entries.map (·.1)
    · simp [hkeys]
    · by_cases hk : entry.1 = key
      · subst hk
        simp [hentry]
      · simp [hkeys, hk, Ne.symm hk]

/-- A collection of the base that becomes that of the snapshot. -/
def Restores (rowsOf : List Json → RowChanges → Option (List Json)) (map snapshot : JsonMap)
    (collection : String × RowChanges) : Prop :=
  ∃ rows rows', map[collection.1]?.bind Json.asArray = some rows ∧
    rowsOf rows collection.2 = some rows' ∧ snapshot[collection.1]? = some (.array rows')

/-- The collections changed one after another. -/
theorem foldlM_applyCollection {rowsOf : List Json → RowChanges → Option (List Json)}
    {snapshot : JsonMap} {collections : List (String × RowChanges)}
    (hkeys : (collections.map (·.1)).Nodup) {map : JsonMap}
    (h : ∀ collection ∈ collections, Restores rowsOf map snapshot collection) :
    ∃ next, collections.foldlM (applyCollection rowsOf) map = some next ∧
      ∀ key : String, next[key]? =
        if key ∈ collections.map (·.1) then snapshot[key]? else map[key]? := by
  induction collections generalizing map with
  | nil => exact ⟨map, rfl, by simp⟩
  | cons collection collections ih =>
    rw [List.map_cons, List.nodup_cons] at hkeys
    obtain ⟨⟨rows, rows', hrows, hnew, hvalue⟩, hrest⟩ := List.forall_mem_cons.mp h
    have hstep : applyCollection rowsOf map collection =
        some (map.insert collection.1 (.array rows')) := by
      simp [applyCollection, hrows, hnew]
    -- The other collections are still those of the base.
    have hkeep : ∀ other ∈ collections,
        Restores rowsOf (map.insert collection.1 (.array rows')) snapshot other := by
      intro other hother
      obtain ⟨rows, rows', hrows, hrest⟩ := hrest other hother
      have hne : collection.1 ≠ other.1 := fun heq =>
        hkeys.1 (heq ▸ List.mem_map_of_mem hother)
      refine ⟨rows, rows', ?_, hrest⟩
      rw [getElem?_insert, if_neg hne]
      exact hrows
    obtain ⟨next, hnext, hget⟩ := ih hkeys.2 hkeep
    refine ⟨next, by simp [hstep, hnext], ?_⟩
    intro key
    rw [hget, getElem?_insert]
    by_cases hmem : key ∈ collections.map (·.1)
    · simp [hmem]
    · by_cases hk : collection.1 = key
      · subst hk
        simp [hvalue]
      · simp [hmem, hk, Ne.symm hk]

/-! ## The difference of two snapshots -/

section Difference

theorem keys_toList_nodup (map : JsonMap) : (map.toList.map (·.1)).Nodup := by
  rw [List.Nodup, List.pairwise_map]
  refine ExtTreeMap.distinct_keys_toList.imp fun {a b} h heq => ?_
  exact h (compare_eq_iff_eq.mpr heq)

theorem mem_toList {map : JsonMap} {entry : String × Json} :
    entry ∈ map.toList ↔ map[entry.1]? = some entry.2 :=
  ExtTreeMap.mem_toList_iff_getElem?_eq_some

/-- The keys of the entries a partial function keeps. -/
theorem filterMap_keys_sublist (f : String × Json → Option RowChanges)
    (entries : List (String × Json)) :
    ((entries.filterMap fun entry => (f entry).map fun change => (entry.1, change)).map
      (·.1)).Sublist (entries.map (·.1)) := by
  induction entries with
  | nil => simp
  | cons entry entries ih =>
    cases hf : f entry with
    | none =>
      simp only [List.filterMap_cons, hf]
      exact ih.cons _
    | some change =>
      simp only [List.filterMap_cons, hf]
      exact ih.cons_cons _

variable {previous snapshot : JsonMap}

/-- The fields of a snapshot that are not as they were. -/
abbrev changedEntries (previous snapshot : JsonMap) : List (String × Json) :=
  snapshot.toList.filter fun entry => decide (previous[entry.1]? ≠ some entry.2)

theorem mem_changedEntries {entry : String × Json} :
    entry ∈ changedEntries previous snapshot ↔
      snapshot[entry.1]? = some entry.2 ∧ previous[entry.1]? ≠ some entry.2 := by
  simp only [changedEntries, List.mem_filter, mem_toList, decide_eq_true_eq]

/-- The collections `diff` sends. -/
abbrev changedCollections (previous snapshot : JsonMap) : List (String × RowChanges) :=
  (changedEntries previous snapshot).filterMap fun entry =>
    (rowsChanged previous entry.1 entry.2).map fun changes => (entry.1, changes)

/-- The fields `diff` sends as they are. -/
abbrev replacedEntries (previous snapshot : JsonMap) : List (String × Json) :=
  (changedEntries previous snapshot).filter fun entry =>
    (rowsChanged previous entry.1 entry.2).isNone

/-- The keys `diff` reports as gone. -/
abbrev removedKeys (previous snapshot : JsonMap) : List String :=
  (previous.toList.map (·.1)).filter fun key => !snapshot.contains key

theorem mem_removedKeys {key : String} :
    key ∈ removedKeys previous snapshot ↔ (previous[key]?).isSome ∧ snapshot[key]? = none := by
  have hkey : key ∈ previous.toList.map (·.1) ↔ (previous[key]?).isSome := by
    rw [List.mem_map, Option.isSome_iff_exists]
    constructor
    · rintro ⟨entry, hentry, rfl⟩
      exact ⟨_, mem_toList.mp hentry⟩
    · rintro ⟨value, hvalue⟩
      exact ⟨(key, value), mem_toList.mpr hvalue, rfl⟩
  rw [List.mem_filter, hkey, ExtTreeMap.contains_eq_isSome_getElem?, Bool.not_eq_true',
    Option.isSome_eq_false_iff, Option.isNone_iff_eq_none]

theorem keys_changedCollections_nodup : ((changedCollections previous snapshot).map (·.1)).Nodup :=
  ((keys_toList_nodup snapshot).sublist (List.filter_sublist.map _)).sublist
    (filterMap_keys_sublist _ _)

/-- A changed field is sent as a collection or as it is. -/
theorem mem_keys_of_changed {entry : String × Json}
    (h : entry ∈ changedEntries previous snapshot) :
    entry.1 ∈ (changedCollections previous snapshot).map (·.1) ∨
      entry.1 ∈ (replacedEntries previous snapshot).map (·.1) := by
  cases hrows : rowsChanged previous entry.1 entry.2 with
  | some changes =>
    refine .inl (List.mem_map.mpr ⟨(entry.1, changes), ?_, rfl⟩)
    exact List.mem_filterMap.mpr ⟨entry, h, by rw [hrows]; rfl⟩
  | none =>
    refine .inr (List.mem_map.mpr ⟨entry, ?_, rfl⟩)
    exact List.mem_filter.mpr ⟨h, by rw [hrows]; rfl⟩

/-- A change of rows is one between keyed rows of both snapshots. -/
theorem rowsChanged_eq_some {key : String} {value : Json} {changes : RowChanges}
    (h : rowsChanged previous key value = some changes) :
    ∃ rows before held, keyedRows value = some rows ∧ previous[key]? = some held ∧
      keyedRows held = some before ∧ changes = diffRows rows before := by
  unfold rowsChanged at h
  split at h
  · rename_i rows before hrows hbefore
    obtain ⟨held, hheld, hkeyed⟩ := Option.bind_eq_some_iff.mp hbefore
    exact ⟨rows, before, held, hrows, hheld, hkeyed, (Option.some.inj h).symm⟩
  · cases h

/-- The base without the keys that are gone and with the fields that were sent as they
are. -/
abbrev replaced (previous snapshot : JsonMap) : JsonMap :=
  (replacedEntries previous snapshot).foldl (fun next entry => next.insert entry.1 entry.2)
    ((removedKeys previous snapshot).foldl (fun next key => next.erase key) previous)

theorem getElem?_replaced (key : String) :
    (replaced previous snapshot)[key]? =
      if key ∈ (replacedEntries previous snapshot).map (·.1) then snapshot[key]?
      else if key ∈ removedKeys previous snapshot then none else previous[key]? := by
  have hentries : ∀ entry ∈ replacedEntries previous snapshot,
      snapshot[entry.1]? = some entry.2 := fun entry hentry =>
    (mem_changedEntries.mp (List.mem_of_mem_filter hentry)).1
  rw [getElem?_foldl_insert hentries, getElem?_foldl_erase]

variable {rowsOf : List Json → RowChanges → Option (List Json)}

/-- How rows are put together. -/
abbrev Reconstructs (rowsOf : List Json → RowChanges → Option (List Json)) : Prop :=
  ∀ rows before, Labelled before → Labelled rows → (rows.map (·.1)).Nodup →
    rowsOf (before.map (·.2)) (diffRows rows before) = some (rows.map (·.2))

/-- Each collection that was sent is still in the base, and becomes that of the
snapshot. -/
theorem restores_changedCollections (hrowsOf : Reconstructs rowsOf)
    {collection : String × RowChanges}
    (h : collection ∈ changedCollections previous snapshot) :
    Restores rowsOf (replaced previous snapshot) snapshot collection := by
  obtain ⟨entry, hentry, hsome⟩ := List.mem_filterMap.mp h
  obtain ⟨changes, hchanges, rfl⟩ := Option.map_eq_some_iff.mp hsome
  obtain ⟨hnow, hbefore⟩ := mem_changedEntries.mp hentry
  obtain ⟨rows, before, held, hrows, hheld, hkeyed, rfl⟩ := rowsChanged_eq_some hchanges
  obtain ⟨harray, hlabelled, hnodup⟩ := keyedRows_eq_some hrows
  obtain ⟨harray', hlabelled', -⟩ := keyedRows_eq_some hkeyed
  refine ⟨before.map (·.2), rows.map (·.2), ?_, ?_, ?_⟩
  · have hplain : entry.1 ∉ (replacedEntries previous snapshot).map (·.1) := by
      intro hmem
      obtain ⟨other, hother, hkey⟩ := List.mem_map.mp hmem
      obtain ⟨hchanged, hnone⟩ := List.mem_filter.mp hother
      have hvalue : other = entry := by
        have hother := (mem_changedEntries.mp hchanged).1
        rw [hkey, hnow] at hother
        exact Prod.ext hkey (Option.some.inj hother).symm
      subst hvalue
      rw [hchanges] at hnone
      cases hnone
    have hpresent : entry.1 ∉ removedKeys previous snapshot := by
      rw [mem_removedKeys, hnow]
      simp
    rw [getElem?_replaced, if_neg hplain, if_neg hpresent, hheld]
    exact harray'
  · exact hrowsOf rows before hlabelled' hlabelled hnodup
  · rw [hnow, eq_array_of_asArray harray]

/-- **Applying a difference to its base gives the snapshot.** -/
theorem applyDiff_eq (hrowsOf : Reconstructs rowsOf) :
    applyDiff rowsOf previous (changedCollections previous snapshot)
      (replacedEntries previous snapshot) (removedKeys previous snapshot) = some snapshot := by
  have hrestores : ∀ collection ∈ changedCollections previous snapshot,
      Restores rowsOf (replaced previous snapshot) snapshot collection :=
    fun collection hcollection => restores_changedCollections hrowsOf hcollection
  obtain ⟨next, hnext, hget⟩ := foldlM_applyCollection keys_changedCollections_nodup hrestores
  have heq : next = snapshot := by
    refine ExtTreeMap.ext_getElem? fun {key} => ?_
    rw [hget, getElem?_replaced]
    by_cases hsame : previous[key]? = snapshot[key]?
    · -- A field that is as it was is neither sent nor gone.
      have hkept : key ∉ removedKeys previous snapshot := by
        rw [mem_removedKeys, hsame]
        intro h
        simp at h
      rw [if_neg hkept, hsame]
      simp
    · cases hvalue : snapshot[key]? with
      | none =>
        have hgone : key ∈ removedKeys previous snapshot := by
          rw [mem_removedKeys]
          refine ⟨?_, hvalue⟩
          rw [hvalue] at hsame
          exact Option.isSome_iff_ne_none.mpr hsame
        simp [hgone]
      | some value =>
        have hchanged : (key, value) ∈ changedEntries previous snapshot :=
          mem_changedEntries.mpr ⟨hvalue, hvalue ▸ hsame⟩
        rcases mem_keys_of_changed hchanged with hmem | hmem
        · rw [if_pos hmem]
        · rw [if_pos hmem]
          simp
  exact hnext.trans (congrArg some heq)

/-- The difference itself, to the tests' client and to the phone. -/
theorem apply_diff (baseDigest digest : String) (previous snapshot : JsonMap) :
    apply previous (diff baseDigest previous digest snapshot) = some snapshot :=
  applyDiff_eq fun _ _ hbefore hrows hnodup => applyRows_diffRows hbefore hrows hnodup

theorem merge_diff (baseDigest digest : String) (previous snapshot : JsonMap) :
    merge (diff baseDigest previous digest snapshot) (some ⟨baseDigest, previous⟩) =
      some ⟨digest, snapshot⟩ := by
  have happly : applyDiff mergeRows previous (changedCollections previous snapshot)
      (replacedEntries previous snapshot) (removedKeys previous snapshot) = some snapshot :=
    applyDiff_eq fun _ _ hbefore hrows hnodup => mergeRows_diffRows hbefore hrows hnodup
  simp only [merge, diff, Option.bind_some]
  rw [happly]
  rfl

end Difference

/-! ## What the host holds -/

section Host

variable (digest : JsonMap → String)

/-- What is held after some calls. -/
def baselines (calls : List (Snapshot × Option String)) : DashboardBaselines :=
  calls.foldl (fun recent call => (changes digest recent call.1 call.2).2) []

variable {digest}

/-- A call adds the snapshot it answers with. -/
theorem mem_changes {recent : DashboardBaselines} {call : Snapshot × Option String}
    {held : String × JsonMap} (h : held ∈ (changes digest recent call.1 call.2).2) :
    held ∈ recent ∨ (call.1 = .object held.2 ∧ held.1 = digest held.2) := by
  obtain ⟨snapshot, named⟩ := call
  cases snapshot with
  | other value => exact .inl h
  | object snapshot =>
    have hmem := List.mem_of_mem_drop h
    rcases List.mem_append.mp hmem with hmem | hmem
    · exact .inl (List.mem_of_mem_filter hmem)
    · rw [List.mem_singleton.mp hmem]
      exact .inr ⟨rfl, rfl⟩

/-- **A snapshot is held under its digest**, and some call answered with it. -/
theorem baselines_held {calls : List (Snapshot × Option String)} {held : String × JsonMap}
    (h : held ∈ baselines digest calls) :
    held.1 = digest held.2 ∧ ∃ call ∈ calls, call.1 = .object held.2 := by
  induction calls using List.reverseRecOn with
  | nil => cases h
  | append_singleton calls call ih =>
    rw [baselines, List.foldl_append] at h
    rcases mem_changes h with h | h
    · have hheld := ih h
      exact ⟨hheld.1, hheld.2.imp fun call hcall => ⟨by simp [hcall.1], hcall.2⟩⟩
    · exact ⟨h.2, call, by simp, h.1⟩

/-- **The dashboard as changes.** After any calls, a client that names the digest of the
snapshot it holds and applies the answer holds the new snapshot, on the condition that no
other snapshot the host answered with has that digest. A digest the host does not hold is
answered in full. -/
theorem round_trip (calls : List (Snapshot × Option String)) (base snapshot : JsonMap)
    (h : ∀ call ∈ calls, ∀ earlier, call.1 = .object earlier →
      digest earlier = digest base → earlier = base) :
    (apply base
        (changes digest (baselines digest calls) (.object snapshot) (some (digest base))).1 =
      some snapshot ∧
    merge (changes digest (baselines digest calls) (.object snapshot) (some (digest base))).1
        (some ⟨digest base, base⟩) =
      some ⟨digest snapshot, snapshot⟩) ∧
    ∀ named, (∀ held ∈ baselines digest calls, named ≠ some held.1) →
      (changes digest (baselines digest calls) (.object snapshot) named).1 =
        .full (some (digest snapshot)) (.object snapshot) := by
  constructor
  · cases hnamed : (baselines digest calls).find? fun held => decide (held.1 = digest base) with
    | none =>
      simp only [changes, Option.bind_some, hnamed]
      exact ⟨rfl, rfl⟩
    | some held =>
      obtain ⟨hdigest, call, hcall, hobject⟩ := baselines_held (List.mem_of_find?_eq_some hnamed)
      have hname : held.1 = digest base := by simpa using List.find?_some hnamed
      have hheld : held = (digest base, base) :=
        Prod.ext hname (h call hcall held.2 hobject (hdigest ▸ hname))
      subst hheld
      simp only [changes, Option.bind_some, hnamed]
      exact ⟨apply_diff _ _ _ _, merge_diff _ _ _ _⟩
  · intro named hnone
    have hnamed : (named.bind fun base =>
        (baselines digest calls).find? fun held => decide (held.1 = base)) = none := by
      cases named with
      | none => rfl
      | some name =>
        rw [Option.bind_some, List.find?_eq_none]
        intro held hheld
        simpa using fun heq : held.1 = name => hnone held hheld (by rw [heq])
    simp [changes, hnamed]

/-- A row with an id. -/
def sessionRow (id : String) : Json := .object [("id", .string id)]

/-- Two sessions. -/
def twoSessions : JsonMap :=
  .ofList [("sessions", Json.array [sessionRow "a", sessionRow "b"])]

/-- The second session comes first, and a third one is new. -/
def movedSessions : JsonMap :=
  .ofList [("sessions", Json.array [sessionRow "b", sessionRow "c"])]

/-- Two sessions and no arcs. -/
def sessionsAndArcs : JsonMap :=
  .ofList [("arcs", Json.array []), ("sessions", Json.array [sessionRow "a", sessionRow "b"])]

/-- The digests of these snapshots. -/
def digestOf (snapshot : JsonMap) : String :=
  if snapshot.contains "arcs" then "661acf09596618f0bef75e0fd2f66290"
  else if snapshot["sessions"]? = some (.array [sessionRow "b", sessionRow "c"]) then
    "3282f4c2feb7e77ce2d4814b5ad3556a"
  else "afcd679e59e7a4109a2623e33519d1fe"

theorem round_trip_sessions :
    (apply twoSessions (changes digestOf (baselines digestOf
        [(.object twoSessions, none), (.object sessionsAndArcs, none)])
        (.object movedSessions) (some (digestOf twoSessions))).1 = some movedSessions ∧
      merge (changes digestOf (baselines digestOf
          [(.object twoSessions, none), (.object sessionsAndArcs, none)])
          (.object movedSessions) (some (digestOf twoSessions))).1
          (some ⟨digestOf twoSessions, twoSessions⟩) =
        some ⟨digestOf movedSessions, movedSessions⟩) ∧
      ∀ named, (∀ held ∈ baselines digestOf
          [(.object twoSessions, none), (.object sessionsAndArcs, none)], named ≠ some held.1) →
        (changes digestOf (baselines digestOf
          [(.object twoSessions, none), (.object sessionsAndArcs, none)])
          (.object movedSessions) named).1 =
          .full (some (digestOf movedSessions)) (.object movedSessions) :=
  round_trip [(.object twoSessions, none), (.object sessionsAndArcs, none)]
    twoSessions movedSessions (by
      intro call hcall earlier hearlier hdigest
      have harcs : digestOf sessionsAndArcs ≠ digestOf twoSessions := by decide
      simp only [List.mem_cons, List.not_mem_nil, or_false] at hcall
      rcases hcall with rfl | rfl
      · cases hearlier
        rfl
      · cases hearlier
        exact absurd hdigest harcs)

end Host

end Argmax.Remote.DashboardChanges
