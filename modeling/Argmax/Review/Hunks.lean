import Argmax.Providers.Normalizer

/-!
# Hunks of a diff

`review/git_review.rs`: the patch of one hunk, cut out of the diff of a file, and the hunk of the
unstaged diff that the patch of a displayed hunk stands for. Texts are lists of characters.
-/

namespace Argmax.Review

open Argmax.Providers (lines)

/-- `Vec::join` with a line feed. -/
def joinLines (ls : List (List Char)) : List Char := List.intercalate ['\n'] ls

def startsWith (text : List Char) (start : String) : Bool := start.toList.isPrefixOf text

/-! ## Errors -/

def hunkUnavailable : ArgmaxError :=
  .serviceError "REVIEW_HUNK_UNAVAILABLE" "This hunk is no longer available."

def hunkUnsupported : ArgmaxError :=
  .serviceError "REVIEW_HUNK_UNSUPPORTED"
    "Hunk actions are unavailable for binary files and renames."

def hunkUnstagedUnavailable : ArgmaxError :=
  .serviceError "REVIEW_HUNK_UNSTAGED_UNAVAILABLE"
    "This hunk is staged or changed. Refresh the diff before reverting it."

/-! ## Extraction -/

/-- What has been read of a diff. -/
structure Scan where
  preamble : List (List Char)
  hunks : List (List (List Char))
  active : Option (List (List Char))

namespace Scan

def start : Scan := ⟨[], [], none⟩

/-- A line of the diff. -/
def next (scan : Scan) (line : List Char) : Scan :=
  if startsWith line "@@ " then
    { scan with hunks := scan.hunks ++ scan.active.toList, active := some [line] }
  else
    match scan.active with
    | some hunk => { scan with active := some (hunk ++ [line]) }
    | none => { scan with preamble := scan.preamble ++ [line] }

/-- All hunks, at the end. -/
def allHunks (scan : Scan) : List (List (List Char)) := scan.hunks ++ scan.active.toList

end Scan

def scanDiff (diff : List Char) : Scan := (lines diff).foldl Scan.next .start

/-- A line of a preamble whose hunks are not offered. -/
def isUnsupported (line : List Char) : Bool :=
  startsWith line "Binary files " || startsWith line "similarity index"

def extractHunkPatch (diff : List Char) (hunkIndex : ℕ) : ArgmaxResult (List Char) :=
  let scan := scanDiff diff
  match scan.allHunks[hunkIndex]? with
  | none => .error hunkUnavailable
  | some hunk =>
    if scan.preamble.any isUnsupported then .error hunkUnsupported
    else .ok (joinLines scan.preamble ++ ['\n'] ++ joinLines hunk ++ ['\n'])

theorem lt_of_extractHunkPatch {diff patch : List Char} {i : ℕ}
    (h : extractHunkPatch diff i = .ok patch) : i < (scanDiff diff).allHunks.length := by
  unfold extractHunkPatch at h
  dsimp only at h
  split at h
  · simp at h
  · rename_i hunk hhunk
    exact (List.getElem?_eq_some_iff.1 hhunk).1

/-! ## The hunk of another diff -/

/-- What `split_once` leaves behind the first occurrence. -/
def afterFirst (needle : List Char) : List Char → Option (List Char)
  | [] => if needle.isEmpty then some [] else none
  | c :: text =>
    if needle.isPrefixOf (c :: text) then some ((c :: text).drop needle.length)
    else afterFirst needle text

/-- What hunks are compared by: the new side and the rows. -/
def comparedPart (patch : List Char) : Option (List Char) :=
  (afterFirst "@@ ".toList patch).bind (afterFirst "+".toList)

/-- The first hunk from an index on that is the selected one. -/
def findMatching (unstagedDiff selected : List Char) (index : ℕ) : ArgmaxResult (List Char) :=
  match _h : extractHunkPatch unstagedDiff index with
  | .ok candidate =>
    if comparedPart candidate = some selected then .ok candidate
    else findMatching unstagedDiff selected (index + 1)
  | .error _ => .error hunkUnstagedUnavailable
termination_by (scanDiff unstagedDiff).allHunks.length - index
decreasing_by
  have := lt_of_extractHunkPatch _h
  omega

def matchingHunkPatch (unstagedDiff selectedPatch : List Char) : ArgmaxResult (List Char) :=
  match comparedPart selectedPatch with
  | none => .error hunkUnavailable
  | some selected => findMatching unstagedDiff selected 0

/-- What is found is a hunk of the other diff that is compared as equal. -/
theorem findMatching_eq_ok {unstagedDiff selected patch : List Char} {index : ℕ}
    (h : findMatching unstagedDiff selected index = .ok patch) :
    comparedPart patch = some selected ∧ ∃ i, extractHunkPatch unstagedDiff i = .ok patch := by
  fun_induction findMatching unstagedDiff selected index with
  | case1 index candidate hcandidate hsame =>
    have heq := Except.ok.inj h
    subst heq
    exact ⟨hsame, index, hcandidate⟩
  | case2 index candidate hcandidate hother ih => exact ih h
  | case3 index error herror => simp at h

theorem matchingHunkPatch_eq_ok {unstagedDiff selectedPatch patch : List Char}
    (h : matchingHunkPatch unstagedDiff selectedPatch = .ok patch) :
    ∃ part, comparedPart selectedPatch = some part ∧ comparedPart patch = some part ∧
      ∃ i, extractHunkPatch unstagedDiff i = .ok patch := by
  unfold matchingHunkPatch at h
  split at h
  · simp at h
  · rename_i selected hselected
    exact ⟨selected, hselected, findMatching_eq_ok h⟩

end Argmax.Review
