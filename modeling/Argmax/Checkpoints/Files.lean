import Argmax.Lib.Text
import Mathlib.Data.Char
import Mathlib.Data.List.Sort
import Mathlib.Data.List.SplitBy

/-!
# The files of a checkout

The contents of a working tree, of an index or of a tree object: paths with what they hold, in the
order in which git lists them. No file lies below another one.
-/

namespace Argmax.Checkpoints

/-! ## Paths -/

inductive Component where
  | rootDir
  | curDir
  | parentDir
  | normal (name : List Char)
  deriving DecidableEq

/-- What a part behind a slash stands for. -/
def laterComponent (part : List Char) : Option Component :=
  if part = [] ∨ part = ['.'] then none
  else if part = ['.', '.'] then some .parentDir
  else some (.normal part)

def components (text : List Char) : List Component :=
  match text.splitOn '/' with
  | [] => []
  | first :: parts =>
    (if text.head? = some '/' then [.rootDir]
      else if first = ['.'] then [.curDir]
      else (laterComponent first).toList) ++ parts.filterMap laterComponent

/-- What separates the entries of a listing. -/
def nul : Char := '\x00'

/-- The path of a file in git: its parts are names. -/
def isPath (text : List Char) : Bool :=
  text.all (· != nul) &&
    (text.splitOn '/').all fun part => part != [] && part != ['.'] && part != ['.', '.']

/-- The path of a file in git. -/
structure Path where
  text : List Char
  valid : isPath text = true
  deriving DecidableEq

/-- One path leads to the other or to what lies below it. -/
def collides (text text' : List Char) : Bool :=
  (components text).isPrefixOf (components text') ||
    (components text').isPrefixOf (components text)

@[simp] theorem collides_self (text : List Char) : collides text text = true := by
  simp [collides]

theorem collides_comm (text text' : List Char) : collides text text' = collides text' text :=
  Bool.or_comm _ _

theorem collides_of_components_eq {text text' : List Char} (h : components text = components text') :
    collides text text' = true := by
  simp [collides, h]

/-! ## Files -/

/-- The kinds of file that a tree tells apart. -/
inductive FileKind where
  | regular
  | executable
  | symlink
  deriving DecidableEq

structure Blob where
  kind : FileKind
  content : String
  deriving DecidableEq

/-- What lies at each path, in the order of the paths. -/
structure Files where
  entries : List (Path × Blob)
  apart : entries.Pairwise fun e e' => e.1.text < e'.1.text ∧ collides e.1.text e'.1.text = false
  deriving DecidableEq

variable {files : Files} {e : Path × Blob} {path : Path}

namespace Files

def empty : Files := ⟨[], .nil⟩

def paths (files : Files) : List Path := files.entries.map Prod.fst

def has (files : Files) (path : Path) : Bool := files.entries.any fun e => e.1 == path

def find? (files : Files) (path : Path) : Option Blob :=
  (files.entries.find? fun e => e.1 == path).map Prod.snd

def filter (files : Files) (keep : Path → Bool) : Files :=
  ⟨files.entries.filter fun e => keep e.1, files.apart.filter _⟩

/-- No file lies below another one. -/
theorem eq_of_collides {e' : Path × Blob} (h : e ∈ files.entries) (h' : e' ∈ files.entries)
    (hcollides : collides e.1.text e'.1.text = true) : e = e' := by
  by_contra hne
  have hapart : files.entries.Pairwise fun e e' => collides e.1.text e'.1.text = false :=
    files.apart.imp And.right
  have : Std.Symm fun e e' : Path × Blob => collides e.1.text e'.1.text = false :=
    ⟨fun _ _ h => (collides_comm _ _).trans h⟩
  simp [hapart.forall h h' hne] at hcollides

/-- A file is written. What lies at its path, below it or in the place of a directory above it
makes room. -/
def write (files : Files) (path : Path) (blob : Blob) : Files where
  entries :=
    (files.entries.filter fun e => !collides path.text e.1.text && decide (e.1.text < path.text)) ++
      (path, blob) ::
        files.entries.filter fun e => !collides path.text e.1.text && decide (path.text < e.1.text)
  apart := by
    rw [List.pairwise_append, List.pairwise_cons]
    refine ⟨files.apart.filter _, ⟨?_, files.apart.filter _⟩, ?_⟩
    · intro e he
      simp only [List.mem_filter, Bool.and_eq_true, Bool.not_eq_true', decide_eq_true_eq] at he
      exact ⟨he.2.2, he.2.1⟩
    · intro e he e' he'
      simp only [List.mem_filter, Bool.and_eq_true, Bool.not_eq_true', decide_eq_true_eq,
        List.mem_cons] at he he'
      rcases he' with rfl | he'
      · exact ⟨he.2.2, (collides_comm _ _).trans he.2.1⟩
      · have hlt := he.2.2.trans he'.2.2
        refine ⟨hlt, ?_⟩
        by_contra hcollides
        have := files.eq_of_collides he.1 he'.1 (by simpa using hcollides)
        simp [this] at hlt

/-- What there is once a file was written: the file, and what did not have to make room. -/
theorem mem_write {blob : Blob} :
    e ∈ (files.write path blob).entries ↔
      e = (path, blob) ∨ (collides path.text e.1.text = false ∧ e ∈ files.entries) := by
  simp only [write, List.mem_append, List.mem_filter, List.mem_cons, Bool.and_eq_true,
    Bool.not_eq_true', decide_eq_true_eq]
  constructor
  · tauto
  · rintro (rfl | ⟨hapart, hmem⟩)
    · simp
    · have hne : e.1.text ≠ path.text := by
        intro heq
        simp [heq] at hapart
      rcases lt_or_gt_of_ne hne with hlt | hlt
      · exact .inl ⟨hmem, hapart, hlt⟩
      · exact .inr (.inr ⟨hmem, hapart, hlt⟩)

@[simp] theorem mem_filter {keep : Path → Bool} :
    e ∈ (files.filter keep).entries ↔ e ∈ files.entries ∧ keep e.1 = true := by
  simp [filter]

theorem mem_paths : path ∈ files.paths ↔ ∃ blob, (path, blob) ∈ files.entries := by
  simp [paths]

theorem has_iff : files.has path = true ↔ path ∈ files.paths := by
  simp [has, paths]

/-- Each path holds one file. -/
theorem find?_eq_some {blob : Blob} :
    files.find? path = some blob ↔ (path, blob) ∈ files.entries := by
  constructor
  · intro h
    rw [find?, Option.map_eq_some_iff] at h
    obtain ⟨e, he, rfl⟩ := h
    have hpath : e.1 = path := by simpa using List.find?_some he
    exact hpath ▸ List.mem_of_find?_eq_some he
  · intro h
    have hsome : (files.entries.find? fun e => e.1 == path).isSome = true := by
      rw [List.find?_isSome]
      exact ⟨_, h, by simp⟩
    obtain ⟨e, he⟩ := Option.isSome_iff_exists.mp hsome
    have hpath : e.1 = path := by simpa using List.find?_some he
    have := files.eq_of_collides (List.mem_of_find?_eq_some he) h (by simp [hpath])
    simp [find?, he, this]

theorem find?_eq_none : files.find? path = none ↔ path ∉ files.paths := by
  rw [mem_paths, ← not_iff_not, ← ne_eq, Option.ne_none_iff_exists']
  simp [find?_eq_some]

/-- Files with the same contents are the same. -/
theorem ext_of_mem {files' : Files} (h : ∀ e, e ∈ files.entries ↔ e ∈ files'.entries) :
    files = files' := by
  cases files with
  | mk entries apart =>
    cases files' with
    | mk entries' apart' =>
      have hlt := fun {l : List (Path × Blob)} (hl : l.Pairwise fun e e' =>
        e.1.text < e'.1.text ∧ collides e.1.text e'.1.text = false) => hl.imp And.left
      simp [(hlt apart).eq_of_mem_iff (hlt apart') h]

/-- Files are written one after the other. What does not collide with one of them is left. -/
theorem mem_foldl_write {es : List (Path × Blob)}
    (hes : es.Pairwise fun e e' => e.1.text < e'.1.text ∧ collides e.1.text e'.1.text = false) :
    e ∈ (es.foldl (fun files e => files.write e.1 e.2) files).entries ↔
      e ∈ es ∨ ((∀ w ∈ es, collides w.1.text e.1.text = false) ∧ e ∈ files.entries) := by
  induction es generalizing files with
  | nil => simp
  | cons w es ih =>
    have ⟨hw, hes⟩ := List.pairwise_cons.mp hes
    simp only [List.foldl_cons, ih hes, mem_write, List.mem_cons, forall_eq_or_imp]
    constructor
    · tauto
    · rintro ((rfl | he) | h)
      · right
        refine ⟨?_, .inl rfl⟩
        intro w' hw'
        exact (collides_comm _ _).trans (hw w' hw').2
      · exact .inl he
      · tauto

end Files

/-! ## Listings -/

/-- A listing with `-z`. -/
def nulList (texts : List (List Char)) : List Char := texts.flatMap (· ++ [nul])

/-- The entries of a listing: `split` and `filter`. -/
def fields (raw : List Char) : List (List Char) :=
  (raw.splitOnP (· == nul)).filter fun field => !field.isEmpty

/-- A text without separators stands in front. -/
theorem splitOnP_append_cons {text rest : List Char} (h : nul ∉ text) :
    (text ++ nul :: rest).splitOnP (· == nul) = text :: rest.splitOnP (· == nul) := by
  induction text with
  | nil => simp [List.splitOnP_cons_eq_if_modifyHead]
  | cons c text ih =>
    simp only [List.mem_cons, not_or] at h
    rw [List.cons_append, List.splitOnP_cons_eq_if_modifyHead, ih h.2]
    have hc : (c == nul) = false := by simpa using Ne.symm h.1
    simp [hc]

/-- A listing is read back. -/
theorem fields_nulList {texts : List (List Char)} (h : ∀ text ∈ texts, text ≠ [] ∧ nul ∉ text) :
    fields (nulList texts) = texts := by
  induction texts with
  | nil => simp [fields, nulList]
  | cons text texts ih =>
    have ⟨htext, hrest⟩ := List.forall_mem_cons.mp h
    have htail := ih hrest
    simp only [fields, nulList, List.flatMap_cons, List.append_assoc, List.singleton_append]
      at htail ⊢
    rw [splitOnP_append_cons htext.2]
    simp [htext.1, htail]

/-- A path is neither empty nor holds a separator. -/
theorem Path.clean (path : Path) : path.text ≠ [] ∧ nul ∉ path.text := by
  have h := path.valid
  simp only [isPath, Bool.and_eq_true, List.all_eq_true] at h
  constructor
  · intro hnil
    have := h.2
    simp [hnil] at this
  · intro hmem
    simpa using h.1 nul hmem

end Argmax.Checkpoints
