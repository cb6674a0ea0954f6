import Argmax.Lib.StableSort
import Argmax.Renderer.Conflation

/-!
# The append path of the event merge

`appendNewerEvents` of `snapshot.ts` puts new events on top of the ones in hand, where the general
path upserts them and sorts everything. The events in hand have distinct ids whatever was merged
into them and taken from them. Where the append path has something to return, no event in hand is
replaced, every one stands below every new one, and the sort is stable.
-/

namespace Argmax.Renderer

open Argmax.Lib Argmax.Providers

variable (collation : Collation) (decode : Decoder)

/-- What a bucket can hold: it starts empty, and updates are merged and events removed. -/
inductive HeldEvents : List TimelineEvent → Prop
  | empty : HeldEvents []
  | merged {current : List TimelineEvent} (updates : List TimelineEvent)
      (h : HeldEvents current) : HeldEvents (mergeEventsBounded collation decode current updates)
  | removed {current : List TimelineEvent} (keep : TimelineEvent → Bool)
      (h : HeldEvents current) : HeldEvents (current.filter keep)

/-- The general path: upsert by id, sort, keep what the budgets allow, and prune. -/
def mergeEventsGenerally (current updates : List TimelineEvent) : List TimelineEvent :=
  pruneSupersededDeltas decode (cap decode ⟨fun _ => 0, 0, 0, 0⟩
    (sortByTimestamp collation (·.createdAt) (·.rowCursor) (upsertById (·.id) current updates)))

/-! ## Distinct ids -/

theorem pruned_sublist (events : List TimelineEvent) :
    (pruneSupersededDeltas decode events).Sublist events := by
  rw [pruneSupersededDeltas]
  split
  · split
    · exact List.Sublist.refl _
    · dsimp only
      split
      · have hkept := (List.filter_sublist (l := events.reverse) (p := fun event =>
          !(supersededAnswerDeltaIds decode events.reverse).contains event.id)).reverse
        rwa [List.reverse_reverse] at hkept
      · exact List.filter_sublist
  · exact List.Sublist.refl _

theorem bounded_sublist (events : List TimelineEvent) : (bounded decode events).Sublist events :=
  (pruned_sublist decode _).trans (cap_sublist decode _ events)

theorem HeldEvents.nodup {collation : Collation} {decode : Decoder} {events : List TimelineEvent}
    (h : HeldEvents collation decode events) : (events.map (·.id)).Nodup := by
  induction h with
  | empty => simp
  | @merged current updates h ih =>
    by_cases hempty : updates = []
    · simpa [mergeEventsBounded, hempty] using ih
    · rw [mergeEventsBounded_of_ne collation decode hempty]
      refine List.Nodup.sublist ((bounded_sublist decode _).map _) ?_
      rw [sortedEvents]
      cases hfast : appendNewerEvents collation current updates with
      | none =>
        exact nodup_sortByTimestamp collation _ _ (nodup_upsertById ih updates)
      | some rows =>
        obtain ⟨rfl, hids, hbelow, -⟩ := appendNewerEvents_eq_some collation hfast
        rw [Option.getD_some, List.map_append, List.nodup_append]
        refine ⟨nodup_sortByTimestamp collation _ _ hids, ih, ?_⟩
        rintro id hid id' hid' rfl
        obtain ⟨event, hevent, rfl⟩ := List.mem_map.mp hid'
        have hperm := perm_sortByTimestamp collation (·.createdAt) (·.rowCursor) updates
        exact (hbelow event hevent).1 ((hperm.map (·.id)).mem_iff.mp hid)
  | removed keep h ih => exact nodup_filter ih keep

/-! ## Upserting rows that are new -/

theorem rows_foldl_put {T : Type*} {id : T → String} (table : Table id) (rows : List T)
    (hnodup : (rows.map id).Nodup) (hnew : ∀ row ∈ rows, ∀ old ∈ table, id old ≠ id row) :
    (rows.foldl Table.put table).rows = table.rows ++ rows := by
  induction rows generalizing table with
  | nil => simp
  | cons row rows ih =>
    rw [List.forall_mem_cons] at hnew
    simp only [List.map_cons, List.nodup_cons] at hnodup
    have hfree : table.find? (id row) = none := Table.find?_eq_none.mpr hnew.1
    rw [List.foldl_cons, Table.put_of_free hfree, ih _ hnodup.2]
    · simp [Table.push]
    · intro other hother old hold
      obtain hold | rfl := Table.mem_push.mp hold
      · exact hnew.2 other hother old hold
      · exact fun heq => hnodup.1 (heq ▸ List.mem_map_of_mem hother)

/-- Rows whose ids are not in hand are appended. -/
theorem upsertById_of_new {T : Type*} {id : T → String} {current updates : List T}
    (hcurrent : (current.map id).Nodup) (hupdates : (updates.map id).Nodup)
    (hnew : ∀ row ∈ current, id row ∉ updates.map id) :
    upsertById id current updates = current ++ updates := by
  have htable : (byId id current).rows = current :=
    rows_foldl_put (.empty : Table id) current hcurrent
      fun row _ old hold => absurd hold (Table.not_mem_empty old)
  rw [upsertById]
  split
  · rename_i hempty
    simp [List.isEmpty_iff.mp hempty]
  · rw [rows_foldl_put _ _ hupdates, htable]
    intro row hrow old hold heq
    rw [Table.mem_def, htable] at hold
    exact hnew old hold (heq ▸ List.mem_map_of_mem hrow)

/-! ## Sorting rows that belong on top -/

section Sorting

variable {T : Type*} (timestamp : T → String) (order : T → Option ℤ)

/-- The comparison of rows that all have cursors. -/
def comesBeforeByCursor (left right : T) : Bool :=
  decide ((order right).getD 0 < (order left).getD 0) ||
    (order left).getD 0 == (order right).getD 0 && collation.le (timestamp right) (timestamp left)

variable {order}

theorem comesBefore_eq {left right : T} (hleft : (order left).isSome)
    (hright : (order right).isSome) :
    comesBefore collation timestamp order left right =
      comesBeforeByCursor collation timestamp order left right := by
  obtain ⟨l, hl⟩ := Option.isSome_iff_exists.mp hleft
  obtain ⟨r, hr⟩ := Option.isSome_iff_exists.mp hright
  by_cases heq : l = r
  · simp [comesBefore, comesBeforeByCursor, hl, hr, heq]
  · have hle : r ≤ l ↔ r < l := by omega
    simp [comesBefore, comesBeforeByCursor, hl, hr, heq, hle]

theorem comesBeforeByCursor_trans (a b c : T)
    (hab : comesBeforeByCursor collation timestamp order a b = true)
    (hbc : comesBeforeByCursor collation timestamp order b c = true) :
    comesBeforeByCursor collation timestamp order a c = true := by
  simp only [comesBeforeByCursor, Bool.or_eq_true, decide_eq_true_eq, Bool.and_eq_true,
    beq_iff_eq] at hab hbc ⊢
  obtain hab | ⟨hab, htext⟩ := hab
  · left
    omega
  · obtain hbc | ⟨hbc, htext'⟩ := hbc
    · left
      omega
    · exact .inr ⟨hab.trans hbc, collation.trans _ _ _ htext' htext⟩

theorem comesBeforeByCursor_total (a b : T) :
    (comesBeforeByCursor collation timestamp order a b ||
      comesBeforeByCursor collation timestamp order b a) = true := by
  have htotal := collation.total (timestamp b) (timestamp a)
  simp only [comesBeforeByCursor, Bool.or_eq_true, decide_eq_true_eq, Bool.and_eq_true,
    beq_iff_eq] at htotal ⊢
  obtain hlt | heq | hlt := Int.lt_trichotomy ((order a).getD 0) ((order b).getD 0)
  · exact .inr (.inl hlt)
  · exact htotal.imp (fun h => .inr ⟨heq, h⟩) fun h => .inr ⟨heq.symm, h⟩
  · exact .inl (.inl hlt)

/-- Rows above descending rows are sorted by themselves. -/
theorem sortByTimestamp_append {current updates : List T}
    (hcurrent : ∀ row ∈ current, (order row).isSome)
    (hupdates : ∀ row ∈ updates, (order row).isSome) (hdescending : Descending order current)
    (hbelow : ∀ row ∈ current, ∀ update ∈ updates, (order row).getD 0 < (order update).getD 0) :
    sortByTimestamp collation timestamp order (current ++ updates) =
      sortByTimestamp collation timestamp order updates ++ current := by
  have hsome : ∀ row ∈ current ++ updates, (order row).isSome := by
    intro row hrow
    exact (List.mem_append.mp hrow).elim (hcurrent row) (hupdates row)
  have hsort : ∀ rows : List T, rows ⊆ current ++ updates →
      sortByTimestamp collation timestamp order rows =
        rows.mergeSort (comesBeforeByCursor collation timestamp order) := by
    intro rows hrows
    exact mergeSort_congr fun a ha b hb =>
      comesBefore_eq collation timestamp (hsome a (hrows ha)) (hsome b (hrows hb))
  rw [hsort _ (List.Subset.refl _), hsort _ (List.subset_append_right _ _)]
  refine mergeSort_append (comesBeforeByCursor_trans collation timestamp)
    (comesBeforeByCursor_total collation timestamp) ?_ fun update hupdate row hrow => ?_
  · exact hdescending.imp fun hlt => by simp [comesBeforeByCursor, hlt]
  · have hlt := hbelow row hrow update hupdate
    simp only [comesBeforeByCursor, Bool.or_eq_false_iff, decide_eq_false_iff_not,
      Bool.and_eq_false_iff, beq_eq_false_iff_ne]
    exact ⟨by omega, .inl (by omega)⟩

end Sorting

/-! ## The append path -/

theorem rowCursor_isSome_of_append {current updates rows : List TimelineEvent}
    (h : appendNewerEvents collation current updates = some rows) :
    (∀ event ∈ current, event.rowCursor.isSome) ∧ ∀ event ∈ updates, event.rowCursor.isSome := by
  rw [appendNewerEvents] at h
  split at h
  · rename_i hfast
    simp only [Bool.and_eq_true, List.all_eq_true] at hfast
    obtain ⟨⟨⟨_, hupdates, _⟩, hcurrent⟩, _⟩ := hfast
    exact ⟨fun event hevent => (hcurrent event hevent).1.1, hupdates⟩
  · cases h

/-- **The append path is the general path**, before and after the budgets and the sweep. -/
theorem append_path_eq {current updates events : List TimelineEvent}
    (hheld : HeldEvents collation decode current)
    (h : appendNewerEvents collation current updates = some events) :
    events = sortByTimestamp collation (·.createdAt) (·.rowCursor)
        (upsertById (·.id) current updates) ∧
      mergeEventsBounded collation decode current updates =
        mergeEventsGenerally collation decode current updates := by
  obtain ⟨hrows, hids, hbelow, hdescending⟩ := appendNewerEvents_eq_some collation h
  obtain ⟨hcurrent, hupdates⟩ := rowCursor_isSome_of_append collation h
  have hsorted : events = sortByTimestamp collation (·.createdAt) (·.rowCursor)
      (upsertById (·.id) current updates) := by
    rw [upsertById_of_new hheld.nodup hids fun event hevent => (hbelow event hevent).1, hrows]
    exact (sortByTimestamp_append collation _ hcurrent hupdates hdescending
      fun event hevent => (hbelow event hevent).2).symm
  refine ⟨hsorted, ?_⟩
  have hne : updates ≠ [] := by
    rintro rfl
    simp [appendNewerEvents] at h
  rw [mergeEventsBounded_of_ne collation decode hne, sortedEvents, h, hsorted]
  rfl

/-- The start of a tool. -/
def toolStarted (id : String) (cursor : ℤ) : TimelineEvent :=
  ⟨id, "session", "tool.started", "", .object [], "2026-01-01T00:00:00.000Z", some cursor⟩

theorem append_path_eq_tools :
    appendNewerEvents .codePoints [toolStarted "a" 1] [toolStarted "b" 2] =
        some [toolStarted "b" 2, toolStarted "a" 1] ∧
      mergeEventsBounded .codePoints (fun _ => ⟨.other, none, false⟩) [toolStarted "a" 1]
          [toolStarted "b" 2] =
        mergeEventsGenerally .codePoints (fun _ => ⟨.other, none, false⟩) [toolStarted "a" 1]
          [toolStarted "b" 2] := by
  have hfirst : mergeEventsBounded .codePoints (fun _ => ⟨.other, none, false⟩) []
      [toolStarted "a" 1] = [toolStarted "a" 1] := by
    simp [mergeEventsBounded, toolStarted, appendNewerEvents, sortByTimestamp, cap, Kept.count,
      eventProtectedLimit, pruneSupersededDeltas]
  have hheld : HeldEvents .codePoints (fun _ => ⟨.other, none, false⟩) [toolStarted "a" 1] :=
    hfirst ▸ .merged [toolStarted "a" 1] .empty
  have happend : appendNewerEvents .codePoints [toolStarted "a" 1] [toolStarted "b" 2] =
      some [toolStarted "b" 2, toolStarted "a" 1] := by
    simp [appendNewerEvents, toolStarted, sortByTimestamp]
  exact ⟨happend, (append_path_eq .codePoints _ hheld happend).2⟩

end Argmax.Renderer
