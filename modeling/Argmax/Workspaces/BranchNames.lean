import Argmax.Error
import Argmax.Lib.Parts
import Argmax.Lib.Text

/-!
# Branch names

`workspaces/branch_names.rs`: the branch of a new worktree, from a template and the values of a
launch. Names are lists of characters. The letters and digits of Unicode are a parameter that is
fixed on ASCII.
-/

namespace Argmax.Workspaces.BranchNames

open Argmax.Lib.Text

/-- `char::is_alphanumeric`. -/
structure AlphanumericClass where
  isAlphanumeric : Char → Bool
  ascii : ∀ c : Char, c.toNat < 128 → isAlphanumeric c = c.isAlphanum

def defaultBranchTemplate : List Char := "argmax/\x7bword\x7d-\x7bid\x7d".toList

def defaultBranchType : List Char := "feat".toList

def maxBranchTemplateChars : ℕ := 100

def maxSlugChars : ℕ := 40

def maxCollisionSuffix : ℕ := 30

def placeholders : List (List Char) :=
  ["type".toList, "slug".toList, "word".toList, "id".toList, "date".toList]

/-! ## The values of a launch -/

structure BranchNameParts where
  kind : List Char
  slug : List Char
  word : List Char
  id : List Char
  date : List Char

/-- Lowercase words joined with `-`, up to the limit. -/
def joinWords (slug : List Char) : List (List Char) → List Char
  | [] => slug
  | word :: rest =>
    let separator := if slug = [] then 0 else 1
    if maxSlugChars < slug.length + separator + word.length then
      -- A single word over the limit is cut, as a slug with nothing in it names nothing.
      if slug = [] then slug ++ (word.take (min maxSlugChars word.length)).map Char.toLower
      else slug
    else
      joinWords ((if separator = 1 then slug ++ ['-'] else slug) ++ word.map Char.toLower) rest

/-- `slugify`: a word with any letter that is not ASCII is skipped whole. -/
def slugify (alphabet : AlphanumericClass) (label : List Char) : List Char :=
  joinWords [] ((label.splitOnP fun c => !alphabet.isAlphanumeric c).filter fun word =>
    !word.isEmpty && word.all fun c => c.toNat < 128)

def BranchNameParts.new (alphabet : AlphanumericClass) (taskLabel word id date : List Char) :
    BranchNameParts :=
  let slug := slugify alphabet taskLabel
  ⟨defaultBranchType, if slug = [] then word else slug, word, id, date⟩

/-! ## Filling a template -/

/-- What a name in braces stands for. -/
def value (parts : BranchNameParts) (name : List Char) : List Char :=
  if name = "type".toList then parts.kind
  else if name = "slug".toList then parts.slug
  else if name = "word".toList then parts.word
  else if name = "id".toList then parts.id
  else if name = "date".toList then parts.date
  else '\x7b' :: (name ++ ['\x7d'])

/-- `fill`, with the name that has been read since an open brace. -/
def fillFrom (parts : BranchNameParts) : Option (List Char) → List Char → List Char
  | none, [] => []
  | none, c :: rest =>
    if c = '\x7b' then fillFrom parts (some []) rest else c :: fillFrom parts none rest
  | some name, [] => '\x7b' :: name
  | some name, c :: rest =>
    if c = '\x7d' then value parts name ++ fillFrom parts none rest
    else fillFrom parts (some (name ++ [c])) rest

def fill (template : List Char) (parts : BranchNameParts) : List Char :=
  fillFrom parts none template

/-! ## Valid names -/

def isControl (c : Char) : Bool := c.toNat < 0x20 || (0x7F ≤ c.toNat && c.toNat < 0xA0)

/-- A character that no name has. -/
def isForbidden (c : Char) : Bool :=
  isControl c || c == ' ' || "~^:?*[\\".toList.contains c

def isValidBranchName (name : List Char) : Bool :=
  if name.isEmpty || name == "@".toList || name == "HEAD".toList || name.head? == some '-' ||
      name.head? == some '/' then false
  else if name.getLast? == some '/' || name.getLast? == some '.' ||
      containsText name "..".toList || containsText name "//".toList then false
  else if containsText name "@\x7b".toList then false
  else if name.any isForbidden then false
  else (name.splitOnP (· == '/')).all fun component =>
    !(component.head? == some '.') && !(".lock".toList.isSuffixOf component)

/-! ## Rendering -/

def withDefaultFallback (template : List Char) (parts : BranchNameParts) (suffix : List Char) :
    List Char :=
  let rendered := fill template parts ++ suffix
  if isValidBranchName rendered then rendered else fill defaultBranchTemplate parts ++ suffix

/-- The suffix of an attempt. -/
def numberSuffix (attempt : ℕ) : List Char :=
  if attempt = 0 then [] else '-' :: Nat.toDigits 10 (attempt + 1)

def renderBranchName (template : List Char) (parts : BranchNameParts) (attempt : ℕ) : List Char :=
  withDefaultFallback template parts (numberSuffix attempt)

inductive BranchStep where
  | numbered (attempt : ℕ)
  | unique
  | fallback

def BranchStep.all : List BranchStep :=
  (List.range (maxCollisionSuffix + 1)).map .numbered ++ [.unique, .fallback]

def renderBranchStep (template : List Char) (parts : BranchNameParts) : BranchStep → List Char
  | .numbered attempt => renderBranchName template parts attempt
  | .unique => withDefaultFallback template parts ('-' :: parts.id)
  | .fallback => fill defaultBranchTemplate parts

/-! ## Checking a template -/

/-- The error of a template. -/
def rejected (message : String) : ArgmaxError :=
  .invalidInput [⟨["branchTemplate"], "BRANCH_TEMPLATE_INVALID", message⟩]

/-- A name in braces. -/
def braced (name : List Char) : String := "\x7b" ++ String.ofList name ++ "\x7d"

/-- The braces of a template, with the name that has been read since an open one. -/
def checkBraces : Option (List Char) → List Char → ArgmaxResult Unit
  | none, [] => .ok ()
  | none, c :: rest =>
    if c = '\x7d' then .error (rejected "A '\x7d' has no matching '\x7b'.")
    else if c = '\x7b' then checkBraces (some []) rest
    else checkBraces none rest
  | some _, [] => .error (rejected "A '\x7b' has no matching '\x7d'.")
  | some name, c :: rest =>
    if c = '\x7b' then .error (rejected "A '\x7b' has no matching '\x7d'.")
    else if c = '\x7d' then
      if name ∈ placeholders then checkBraces none rest
      else .error (rejected ("Unknown placeholder " ++ braced name ++ ". Use " ++
        ", ".intercalate (placeholders.map braced) ++ "."))
    else checkBraces (some (name ++ [c])) rest

/-- The values that a template is tried with. -/
def probe : BranchNameParts where
  kind := "feat".toList
  slug := List.replicate maxSlugChars 'x'
  word := "cedar".toList
  id := "a3f92c18".toList
  date := "20260101".toList

def validateBranchTemplate (template : List Char) : ArgmaxResult Unit :=
  if template ≠ trim template ∨ template = [] then
    .error (rejected "A branch template must not be blank or start or end with spaces.")
  else if maxBranchTemplateChars < template.length then
    .error (rejected ("A branch template has at most " ++ toString maxBranchTemplateChars ++
      " characters."))
  else
    match checkBraces none template with
    | .error error => .error error
    | .ok () =>
      let rendered := fill template probe
      if isValidBranchName rendered then .ok ()
      else .error (rejected ("It would produce '" ++ String.ofList rendered ++
        "', which Git does not accept as a branch name."))

/-! ## What a launch passes -/

def worktreeNames : List (List Char) :=
  ["alder", "aspen", "birch", "cedar", "clover", "cypress", "elm", "fern", "fir", "grove", "hazel",
    "heather", "holly", "iris", "ivy", "juniper", "laurel", "linden", "maple", "meadow", "moss",
    "oak", "olive", "pine", "reed", "rowan", "sage", "spruce", "thyme", "violet", "willow",
    "yew"].map String.toList

/-- The word, the id and the day of a launch. -/
structure Launch where
  word : List Char
  id : List Char
  date : List Char
  word_mem : word ∈ worktreeNames
  id_length : id.length = 8
  /-- Hex characters. -/
  id_hex : ∀ c ∈ id, c.isDigit ∨ 'a' ≤ c ∧ c ≤ 'f'
  date_length : date.length = 8
  date_digit : ∀ c ∈ date, c.isDigit

/-- The values of a launch with a label. -/
def Launch.parts (launch : Launch) (alphabet : AlphanumericClass) (taskLabel : List Char) :
    BranchNameParts :=
  .new alphabet taskLabel launch.word launch.id launch.date

end Argmax.Workspaces.BranchNames
