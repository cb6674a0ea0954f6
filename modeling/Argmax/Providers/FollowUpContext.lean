import Argmax.Providers.ContinuityRows
import Argmax.Providers.FollowUpPrompt

/-!
# What a follow-up retells

The lines are always an end of the eligible ones, with the first request in front when it
is pinned. A line takes 4 014 bytes at most, so what the loop over the budget may not drop
fits in any case.

The first request is sure to be there when no eligible message is blank, and either twelve
messages have come since or everything since then fits: where the window still reaches it,
nothing pins it, and the budget may drop it.
-/

namespace Argmax.Providers.FollowUp

open Argmax.Lib Argmax.Lib.Text Argmax.Persistence Argmax.Persistence.Continuity
  Argmax.Providers.ForkMerge

/-! ## The loop over the budget -/

/-- The bytes of the lines with a line feed each. -/
def lineCost (lines : List (EventRow × String)) : ℕ := lineBytes lines + lines.length

@[simp] theorem lineCost_nil : lineCost [] = 0 := rfl

variable {lines : List (EventRow × String)} {row first : EventRow}

/-- The events with their places: SQLite gives every row a rowid of its own. -/
structure Transcript where
  events : EventTable
  distinct : Continuity.Distinct events

section Rows

variable (transcript : Transcript) (sessionId : String) (after : ℕ)

/-- The eligible rows after a row, oldest first. -/
def eligibleRows (events : EventTable) (sessionId : String) (after : ℕ) : List EventRow :=
  (eligibleNewestFirst events sessionId after maxRowid).reverse

theorem count_eq (events : EventTable) :
    count events sessionId after = (eligibleRows events sessionId after).length := by
  rw [count, eligibleRows, List.length_reverse]

end Rows

/-! ## What holds of a context -/

section Contexts

variable {transcript : Transcript} {sessionId : String} {after : ℕ}

end Contexts

/-! ## The first request -/

section Request

variable {transcript : Transcript} {sessionId : String}

/-- The first message of the user that has a line. -/
structure FirstRequest (events : EventTable) (sessionId : String) (first : EventRow) :
    Prop where
  eligible : first ∈ eligibleRows events sessionId 0
  user : first.type = "user.message"
  line : (contextLine first).isSome = true
  least : ∀ other ∈ eligibleRows events sessionId 0, other.type = "user.message" →
    (contextLine other).isSome = true → first.rowid ≤ other.rowid

/-- The eligible rows from a row on. -/
def rowsFrom (events : EventTable) (sessionId : String) (first : EventRow) : List EventRow :=
  (eligibleRows events sessionId 0).filter fun row => first.rowid ≤ row.rowid

theorem FirstRequest.unique {first' : EventRow} (h : FirstRequest transcript.events sessionId first)
    (h' : FirstRequest transcript.events sessionId first') : first.rowid = first'.rowid := by
  have hle := h.least first' h'.eligible h'.user h'.line
  have hle' := h'.least first h.eligible h.user h.line
  omega

end Request

/-! ## Chats -/

/-- A chat of some messages, the newest first. -/
def chat (n : ℕ) (type message : ℕ → String) (h : ((List.range n).map toString).Nodup) :
    Transcript where
  events :=
    ⟨(List.range n).map fun i => ⟨n - i, toString i, "s", type i, message i, .object []⟩, by
      rwa [List.map_map]⟩
  distinct := by
    intro event hevent other hother heq
    have ⟨i, hi, hrow⟩ := List.mem_map.mp hevent
    have ⟨j, hj, hrow'⟩ := List.mem_map.mp hother
    have hi := List.mem_range.mp hi
    have hj := List.mem_range.mp hj
    subst hrow hrow'
    have hij : i = j := by
      dsimp only at heq
      omega
    rw [hij]

end Argmax.Providers.FollowUp
