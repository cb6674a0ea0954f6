import Argmax.Lib.Regex

/-!
# The risk of a shell command

A command is classified once as a whole. Two checks look at one segment of it, the
one behind the first `rm ` or the first `git push`; then come the shapes that would
end the application itself, fifteen patterns of high risk and seven of medium risk.
The first check that answers gives the decision.

Which characters belong to a word is a parameter, with the facts the classifier
rests on: the ones a word boundary of its patterns is next to when commands are
joined.
-/

namespace Argmax.Approvals

open Argmax.Lib.Text Argmax.Lib.Search

inductive CommandRiskLevel
  | low
  | medium
  | high
deriving DecidableEq

structure CommandRiskDecision where
  requiresApproval : Bool
  riskLevel : CommandRiskLevel
  reason : String
deriving DecidableEq

structure PatternDecision where
  pattern : Pattern
  reason : String

/-- A character that ends a command. -/
def isShellSeparator (c : Char) : Bool := c == '\n' || c == ';' || c == '|' || c == '&'

/-- The word characters of the pattern engine. -/
structure WordClass where
  isWord : Char → Bool
  whitespace : ∀ c, isWhitespace c = true → isWord c = false
  separator : ∀ c, isShellSeparator c = true → isWord c = false

/-! ## The patterns -/

section Patterns

open Regex

/-- `\s+`. -/
def spaces : Regex := .some isWhitespace

/-- `[^\n;|&]*`. -/
def withinSegment : Regex := .many fun c => !isShellSeparator c

/-- `["']`. -/
def quote : Regex := .one fun c => c == '"' || c == '\''

/-- ``(^|[\s|;&(`])``. -/
def commandStart (c : Char) : Bool :=
  isWhitespace c || c == '|' || c == ';' || c == '&' || c == '(' || c == '\x60'

/-- `[a-z0-9]` in any case. -/
def isAlphanumeric (c : Char) : Bool :=
  let c := foldCase c
  ('a' ≤ c && c ≤ 'z') || ('0' ≤ c && c ≤ '9')

/-- `[a-zA-Z]` in any case. -/
def isLetter (c : Char) : Bool :=
  let c := foldCase c
  'a' ≤ c && c ≤ 'z'

/-- `[0-7]`. -/
def octal : Regex := .one fun c => '0' ≤ c && c ≤ '7'

/-- The verbs that destroy when a substitution runs them. -/
def destructiveVerbs : Regex := oneOf ["rm", "sudo", "chmod", "chown", "dd", "mkfs", "curl", "wget"]

def PIPE_TO_SHELL : Pattern :=
  ⟨none, all [.text "|", .many isWhitespace, oneOf ["sh", "bash", "zsh", "fish", "ksh", "dash"],
    .boundary]⟩

def EVAL_SOURCE_SUBSTITUTION : Pattern :=
  ⟨none, all [.boundary, oneOf ["eval", "source"], spaces, .optional quote, .text "$("]⟩

def DOT_SOURCE_SUBSTITUTION : Pattern :=
  ⟨some commandStart, all [.text ".", spaces, .optional quote, .text "$("]⟩

def DESTRUCTIVE_SUBSTITUTION : Pattern :=
  ⟨none, all [.text "$(", .many isWhitespace, destructiveVerbs, .boundary]⟩

def DESTRUCTIVE_BACKTICK : Pattern :=
  ⟨none, all [.text "\x60", .many isWhitespace, destructiveVerbs, .boundary]⟩

def FIND_DELETE : Pattern :=
  ⟨none, all [.boundary, .text "find", .boundary, withinSegment, .one isWhitespace,
    .text "-delete", .boundary]⟩

def DD_IF : Pattern :=
  ⟨none, all [.boundary, .text "dd", .boundary, withinSegment, .one isWhitespace, .text "if="]⟩

def MKFS : Pattern :=
  ⟨none, all [.boundary, .text "mkfs", .optional (all [.text ".", .some isAlphanumeric]),
    .boundary]⟩

def CHMOD_WORLD_WRITABLE : Pattern :=
  ⟨none, all [.boundary, .text "chmod", spaces, .optional (all [.text "-r", spaces]),
    .optional (.text "0"), octal, octal, .one fun c => c == '6' || c == '7', .boundary]⟩

def GIT_RESET_HARD : Pattern :=
  ⟨none, all [.boundary, .text "git", spaces, .text "reset", .boundary, withinSegment,
    .one isWhitespace, .text "--hard", .boundary]⟩

def GIT_RESET : Pattern :=
  ⟨none, all [.boundary, .text "git", spaces, .text "reset", .boundary]⟩

def GIT_CLEAN_FORCE : Pattern :=
  ⟨none, all [.boundary, .text "git", spaces, .text "clean", .boundary, withinSegment,
    .one isWhitespace, .text "-", .many isLetter, .text "f"]⟩

def GIT_BRANCH_DELETE : Pattern :=
  ⟨none, all [.boundary, .text "git", spaces, .text "branch", .boundary, withinSegment,
    .one isWhitespace, .text "-d", .boundary]⟩

def GIT_WORKTREE_REMOVE : Pattern :=
  ⟨none, all [.boundary, .text "git", spaces, .text "worktree", spaces, .text "remove", .boundary]⟩

def GH_PR_MUTATION : Pattern :=
  ⟨none, all [.boundary, .text "gh", spaces, .text "pr", spaces,
    oneOf ["create", "merge", "close"], .boundary]⟩

def SUDO_BOUNDARY : Pattern := ⟨some commandStart, all [.text "sudo", .boundary]⟩

def QUIT_ARGMAX_APP : Pattern :=
  ⟨none, all [.text "quit", spaces, .text "app", spaces, quote, .text "argmax", quote]⟩

def TELL_ARGMAX_TO_QUIT : Pattern :=
  ⟨none, all [.text "tell", spaces, .text "application", spaces, quote, .text "argmax", quote,
    withinSegment, .boundary, .text "to", spaces, .text "quit", .boundary]⟩

def KILL_ARGMAX_PROCESS : Pattern :=
  ⟨none, all [.boundary, oneOf ["killall", "pkill"], .boundary, withinSegment, .boundary,
    .text "argmax", .boundary]⟩

def GIT_ADD : Pattern := ⟨none, all [.boundary, .text "git", spaces, .text "add", .boundary]⟩

def GIT_COMMIT : Pattern :=
  ⟨none, all [.boundary, .text "git", spaces, .text "commit", .boundary]⟩

def GIT_MERGE_REBASE_CHECKOUT : Pattern :=
  ⟨none, all [.boundary, .text "git", spaces, oneOf ["merge", "rebase", "checkout"], .boundary]⟩

def GIT_PUSH : Pattern := ⟨none, all [.boundary, .text "git", spaces, .text "push", .boundary]⟩

def CHMOD_CHOWN : Pattern := ⟨none, all [.boundary, oneOf ["chmod", "chown"], .boundary]⟩

def DEPENDENCY_MUTATION : Pattern :=
  ⟨none, all [.boundary, oneOf ["npm", "pnpm", "yarn", "bun"], spaces,
    oneOf ["install", "add", "remove", "uninstall"], .boundary]⟩

end Patterns

def HIGH_RISK_PATTERNS : List PatternDecision :=
  [⟨PIPE_TO_SHELL, "Pipe to shell interpreter"⟩,
    ⟨EVAL_SOURCE_SUBSTITUTION, "Eval of command substitution"⟩,
    ⟨DOT_SOURCE_SUBSTITUTION, "Eval of command substitution"⟩,
    ⟨DESTRUCTIVE_SUBSTITUTION, "Destructive command substitution"⟩,
    ⟨DESTRUCTIVE_BACKTICK, "Destructive backtick substitution"⟩,
    ⟨FIND_DELETE, "find -delete"⟩,
    ⟨DD_IF, "dd block copy"⟩,
    ⟨MKFS, "Filesystem creation"⟩,
    ⟨CHMOD_WORLD_WRITABLE, "World-writable chmod"⟩,
    ⟨GIT_RESET_HARD, "Hard git reset"⟩,
    ⟨GIT_CLEAN_FORCE, "Forced git clean"⟩,
    ⟨GIT_BRANCH_DELETE, "Branch deletion"⟩,
    ⟨GIT_WORKTREE_REMOVE, "Worktree removal"⟩,
    ⟨GH_PR_MUTATION, "GitHub PR mutation"⟩,
    ⟨SUDO_BOUNDARY, "Privilege escalation"⟩]

def MEDIUM_RISK_PATTERNS : List PatternDecision :=
  [⟨GIT_ADD, "Git staging"⟩,
    ⟨GIT_COMMIT, "Git commit"⟩,
    ⟨GIT_MERGE_REBASE_CHECKOUT, "History or checkout mutation"⟩,
    ⟨GIT_RESET, "Git reset"⟩,
    ⟨GIT_PUSH, "Remote git mutation"⟩,
    ⟨CHMOD_CHOWN, "Permission mutation"⟩,
    ⟨DEPENDENCY_MUTATION, "Dependency mutation"⟩]

/-! ## The checks of one segment -/

/-- The index of the first occurrence. -/
def find (needle : List Char) : List Char → Option ℕ
  | [] => if needle.isEmpty then some 0 else none
  | c :: text =>
    if needle.isPrefixOf (c :: text) then some 0 else (find needle text).map (· + 1)

def toAsciiLowercase (text : List Char) : List Char := text.map Char.toLower

/-- The text before the first separator. -/
def untilShellSeparator (value : List Char) : List Char :=
  value.takeWhile fun c => !isShellSeparator c

def splitWhitespace (text : List Char) : List (List Char) :=
  (text.splitOnP isWhitespace).filter fun token => !token.isEmpty

def commandSegmentAfter (command : List Char) (commandName : String) : Option (List Char) := do
  let lower := toAsciiLowercase command
  let needle := commandName.toList ++ [' ']
  let index ← (find needle lower).or (if lower = commandName.toList then some 0 else none)
  some (untilShellSeparator (command.drop (index + commandName.toList.length)))

def commandSegmentAfterTwoWords (command : List Char) (first second : String) :
    Option (List Char) := do
  let lower := toAsciiLowercase command
  let needle := first.toList ++ [' '] ++ second.toList
  let index ← find needle lower
  some (untilShellSeparator (command.drop (index + needle.length)))

def eqIgnoreAsciiCase (token : List Char) (expected : String) : Bool :=
  toAsciiLowercase token == expected.toList

/-- One token of the segment behind `rm`: a long flag, or a group of short ones. -/
def rmFlag (flags : Bool × Bool) (token : List Char) : Bool × Bool :=
  if eqIgnoreAsciiCase token "--recursive" then (true, flags.2)
  else if eqIgnoreAsciiCase token "--force" then (flags.1, true)
  else match token with
    | '-' :: short =>
      if short.head? = some '-' then flags
      else (flags.1 || short.any (fun c => c == 'r' || c == 'R'),
        flags.2 || short.any fun c => c == 'f' || c == 'F')
    | _ => flags

def rmRecursiveForced (command : List Char) : Bool :=
  match commandSegmentAfter command "rm" with
  | none => false
  | some segment =>
    let flags := (splitWhitespace segment).foldl rmFlag (false, false)
    flags.1 && flags.2

def gitPushForce (command : List Char) : Bool :=
  match commandSegmentAfterTwoWords command "git" "push" with
  | none => false
  | some segment =>
    (splitWhitespace segment).any fun token =>
      eqIgnoreAsciiCase token "--force" || eqIgnoreAsciiCase token "-f" ||
        eqIgnoreAsciiCase token "--mirror"

/-! ## The decision -/

section

variable (word : WordClass)

def wouldTerminateArgmaxHost (command : List Char) : Bool :=
  let normalized := trim command
  QUIT_ARGMAX_APP.isMatch word.isWord normalized ||
    TELL_ARGMAX_TO_QUIT.isMatch word.isWord normalized ||
    KILL_ARGMAX_PROCESS.isMatch word.isWord normalized

/-- The first pattern of a list that matches. -/
def firstMatch (items : List PatternDecision) (text : List Char) : Option PatternDecision :=
  items.find? fun item => item.pattern.isMatch word.isWord text

def high (reason : String) : CommandRiskDecision := ⟨true, .high, reason⟩

def medium (reason : String) : CommandRiskDecision := ⟨true, .medium, reason⟩

def classifyCommandRisk (command : List Char) : CommandRiskDecision :=
  let normalized := trim command
  if rmRecursiveForced normalized then high "Recursive forced removal"
  else if gitPushForce normalized then high "Force push"
  else if wouldTerminateArgmaxHost word normalized then high "Would quit or kill Argmax"
  else match firstMatch word HIGH_RISK_PATTERNS normalized with
    | some item => high item.reason
    | none =>
      match firstMatch word MEDIUM_RISK_PATTERNS normalized with
      | some item => medium item.reason
      | none => ⟨false, .low, "Read-only or low-risk command"⟩

end

/-- The ASCII letters, digits and the underscore. -/
def asciiWords : WordClass where
  isWord c := c.isAlphanum || c == '_'
  whitespace c h := by
    simp only [isWhitespace, Bool.or_eq_true, Bool.and_eq_true, decide_eq_true_eq, beq_iff_eq] at h
    by_contra hword
    rw [Bool.not_eq_false] at hword
    delta Char.isAlphanum Char.isAlpha Char.isUpper Char.isLower Char.isDigit at hword
    simp only [Bool.or_eq_true, beq_iff_eq, Bool.and_eq_true, decide_eq_true_eq,
      UInt32.le_iff_toNat_le, ge_iff_le] at hword
    change ((65 ≤ c.toNat ∧ c.toNat ≤ 90 ∨ 97 ≤ c.toNat ∧ c.toNat ≤ 122) ∨
      48 ≤ c.toNat ∧ c.toNat ≤ 57) ∨ c = '_' at hword
    rcases hword with hword | rfl
    · omega
    · simp at h
  separator c h := by
    simp only [isShellSeparator, Bool.or_eq_true, beq_iff_eq] at h
    rcases h with ((rfl | rfl) | rfl) | rfl <;> rfl

example : (classifyCommandRisk asciiWords "Rm -Rf dist".toList).riskLevel = .high := by
  rfl

example : (classifyCommandRisk asciiWords "git push --force-with-lease".toList).riskLevel =
    .medium := by
  rfl

end Argmax.Approvals
