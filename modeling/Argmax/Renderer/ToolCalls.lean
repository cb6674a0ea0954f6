import Mathlib.Data.List.Count
import Mathlib.Data.List.Perm.Basic

/-!
# Tool calls of a group

`lib/toolCalls.ts`: the rows of a group of tool calls. A call with the id of another call of the
group as its parent is a child of that call's row, and every other call is a row.
-/

namespace Argmax.Renderer.ToolCalls

/-- `ToolCall`, as far as rows are about it. -/
structure ToolCall where
  id : String
  toolUseId : String
  name : String
  parentToolUseId : Option String := none
  deriving DecidableEq

structure GroupRow where
  tool : ToolCall
  children : List ToolCall
  deriving DecidableEq

/-! ## The rows -/

/-- The parent that a call names. The empty id names none. -/
def ToolCall.parent (tool : ToolCall) : Option String := tool.parentToolUseId.filter (· != "")

/-- The call whose child a call becomes, where `byId` are the ids of the group. -/
def nestsUnder (byId : List String) (tool : ToolCall) : Option String :=
  tool.parent.filter fun parent => parent != tool.toolUseId && byId.contains parent

/-- The calls seen so far, at the top and by parent. -/
structure Filed where
  topLevel : List ToolCall
  childrenByParent : String → Option (List ToolCall)

/-- One turn of the loop over the calls. -/
def Filed.file (byId : List String) (filed : Filed) (tool : ToolCall) : Filed :=
  match nestsUnder byId tool with
  | some parent =>
    let children := (filed.childrenByParent parent).getD [] ++ [tool]
    { filed with childrenByParent := Function.update filed.childrenByParent parent (some children) }
  | none => { filed with topLevel := filed.topLevel ++ [tool] }

def buildGroupRows (tools : List ToolCall) : List GroupRow :=
  let filed := tools.foldl (Filed.file (tools.map (·.toolUseId))) ⟨[], fun _ => none⟩
  filed.topLevel.map fun tool => ⟨tool, (filed.childrenByParent tool.toolUseId).getD []⟩

/-! ## What the loop files -/

section Filing

variable (byId : List String)

/-- The calls at the top. -/
def topLevel (tools : List ToolCall) : List ToolCall :=
  tools.filter fun tool => (nestsUnder byId tool).isNone

/-- The calls below the call with an id. -/
def childrenOf (tools : List ToolCall) (toolUseId : String) : List ToolCall :=
  tools.filter fun tool => nestsUnder byId tool == some toolUseId

theorem topLevel_file (tools : List ToolCall) (filed : Filed) :
    (tools.foldl (Filed.file byId) filed).topLevel = filed.topLevel ++ topLevel byId tools := by
  induction tools generalizing filed with
  | nil => simp [topLevel]
  | cons tool tools ih =>
    rw [List.foldl_cons, ih, Filed.file, topLevel, topLevel, List.filter_cons]
    cases hnests : nestsUnder byId tool <;> simp

theorem children_file (tools : List ToolCall) (filed : Filed) (toolUseId : String) :
    ((tools.foldl (Filed.file byId) filed).childrenByParent toolUseId).getD [] =
      (filed.childrenByParent toolUseId).getD [] ++ childrenOf byId tools toolUseId := by
  induction tools generalizing filed with
  | nil => simp [childrenOf]
  | cons tool tools ih =>
    rw [List.foldl_cons, ih, Filed.file, childrenOf, childrenOf, List.filter_cons]
    cases hnests : nestsUnder byId tool with
    | none => simp
    | some parent =>
      by_cases hparent : parent = toolUseId
      · subst hparent
        simp
      · simp [Function.update_of_ne (Ne.symm hparent), hparent]

end Filing

theorem buildGroupRows_eq (tools : List ToolCall) :
    buildGroupRows tools = (topLevel (tools.map (·.toolUseId)) tools).map fun tool =>
      ⟨tool, childrenOf (tools.map (·.toolUseId)) tools tool.toolUseId⟩ := by
  simp only [buildGroupRows]
  rw [topLevel_file]
  apply List.map_congr_left
  intro tool _
  rw [children_file]
  rfl

/-! ## What rows show -/

/-- The calls of a row. -/
def GroupRow.shown (row : GroupRow) : List ToolCall := row.tool :: row.children

/-- **Rows keep the calls of a group**: each is shown once, and the children of a row are the
calls that name the row's call as their parent. -/
structure KeepsTools (tools : List ToolCall) (rows : List GroupRow) : Prop where
  once : (rows.flatMap (·.shown)).Perm tools
  /-- A row has children of its own only. -/
  own : ∀ row ∈ rows, ∀ child ∈ row.children, child.parent = some row.tool.toolUseId
  /-- A call whose parent has a row is below it. -/
  placed : ∀ row ∈ rows, ∀ tool ∈ tools, tool.parent = some row.tool.toolUseId →
    tool.toolUseId ≠ row.tool.toolUseId → tool ∈ row.children

variable {tools : List ToolCall}

theorem nestsUnder_eq_some {byId : List String} {tool : ToolCall} {parent : String} :
    nestsUnder byId tool = some parent ↔
      tool.parent = some parent ∧ parent ≠ tool.toolUseId ∧ parent ∈ byId := by
  simp [nestsUnder, Option.filter_eq_some_iff]

theorem mem_childrenOf {byId : List String} {tool : ToolCall} {toolUseId : String} :
    tool ∈ childrenOf byId tools toolUseId ↔
      tool ∈ tools ∧ nestsUnder byId tool = some toolUseId := by
  simp [childrenOf]

theorem mem_topLevel {byId : List String} {tool : ToolCall} :
    tool ∈ topLevel byId tools ↔ tool ∈ tools ∧ nestsUnder byId tool = none := by
  simp [topLevel]

/-- A row and the children of the rows are shown. -/
theorem shown_perm (byId : List String) (roots : List ToolCall) :
    ((roots.map fun tool => (⟨tool, childrenOf byId tools tool.toolUseId⟩ : GroupRow)).flatMap
      (·.shown)).Perm (roots ++ roots.flatMap fun tool => childrenOf byId tools tool.toolUseId) := by
  induction roots with
  | nil => simp
  | cons root roots ih =>
    simp only [List.flatMap_cons, List.cons_append]
    refine .cons _ ((List.Perm.append_left _ ih).trans ?_)
    rw [← List.append_assoc, ← List.append_assoc]
    exact .append_right _ List.perm_append_comm

/-- A call is shown below as many rows as have the id that it names. -/
theorem count_children (byId : List String) (roots : List ToolCall) (tool : ToolCall) :
    (roots.flatMap fun root => childrenOf byId tools root.toolUseId).count tool =
      roots.countP (fun root => nestsUnder byId tool == some root.toolUseId) * tools.count tool := by
  induction roots with
  | nil => simp
  | cons root roots ih =>
    rw [List.flatMap_cons, List.count_append, List.countP_cons, childrenOf, Nat.add_mul,
      Nat.add_comm]
    congr 1
    by_cases hnests : nestsUnder byId tool == some root.toolUseId
    · have hkept := List.count_filter (l := tools)
        (p := fun tool => nestsUnder byId tool == some root.toolUseId) hnests
      rw [hkept, if_pos hnests, Nat.one_mul]
    · rw [if_neg hnests, Nat.zero_mul, List.count_eq_zero]
      intro hmem
      exact hnests (List.mem_filter.mp hmem).2

theorem countP_roots (roots : List ToolCall) (parent : String) :
    roots.countP (fun root => some parent == some root.toolUseId) =
      roots.countP (·.toolUseId == parent) := by
  refine List.countP_congr fun root _ => ?_
  rw [beq_iff_eq, beq_iff_eq, Option.some.injEq]
  exact eq_comm

/-- **No tool is lost in a group** if and only if every call that names a call of the group names
one that is a row, and no second row. -/
theorem group_rows_keep_iff (tools : List ToolCall) :
    let byId := tools.map (·.toolUseId)
    KeepsTools tools (buildGroupRows tools) ↔
      ∀ tool ∈ tools, ∀ parent, nestsUnder byId tool = some parent →
        (topLevel byId tools).countP (·.toolUseId == parent) = 1 := by
  intro byId
  have hrows := buildGroupRows_eq tools
  have hcount : ∀ tool, ((buildGroupRows tools).flatMap (·.shown)).count tool =
      (topLevel byId tools).count tool + (topLevel byId tools).countP
        (fun root => nestsUnder byId tool == some root.toolUseId) * tools.count tool := by
    intro tool
    rw [hrows, (shown_perm byId _).count_eq, List.count_append, count_children]
  constructor
  · intro h tool htool parent hnests
    have honce := h.once.count_eq tool
    have hroot : (topLevel byId tools).count tool = 0 := by
      rw [List.count_eq_zero, mem_topLevel, hnests]
      simp
    have hpos := List.count_pos_iff.mpr htool
    rw [hcount, hroot, Nat.zero_add] at honce
    have hone := Nat.eq_of_mul_eq_mul_right hpos (honce.trans (Nat.one_mul _).symm)
    rwa [hnests, countP_roots] at hone
  · intro h
    refine ⟨List.perm_iff_count.mpr fun tool => ?_, fun row hrow child hchild => ?_,
      fun row hrow tool htool hparent hne => ?_⟩
    · rw [hcount]
      cases hnests : nestsUnder byId tool with
      | none =>
        have hroot : (topLevel byId tools).count tool = tools.count tool :=
          List.count_filter (by simp [hnests])
        simp [hroot]
      | some parent =>
        by_cases htool : tool ∈ tools
        · have hroot : (topLevel byId tools).count tool = 0 := by
            rw [List.count_eq_zero, mem_topLevel, hnests]
            simp
          have hone := h tool htool parent hnests
          rw [hroot, countP_roots, hone, Nat.zero_add, Nat.one_mul]
        · rw [List.count_eq_zero.mpr htool, List.count_eq_zero.mpr fun hmem =>
            htool (mem_topLevel.mp hmem).1]
          simp
    · rw [hrows] at hrow
      obtain ⟨root, _, rfl⟩ := List.mem_map.mp hrow
      exact (nestsUnder_eq_some.mp (mem_childrenOf.mp hchild).2).1
    · rw [hrows] at hrow
      obtain ⟨root, hroot, rfl⟩ := List.mem_map.mp hrow
      have hmem : root.toolUseId ∈ byId := List.mem_map_of_mem (mem_topLevel.mp hroot).1
      exact mem_childrenOf.mpr ⟨htool, nestsUnder_eq_some.mpr ⟨hparent, Ne.symm hne, hmem⟩⟩

/-- An agent, an agent that it starts, and what that one does: the last call has no row. -/
theorem grandchild_lost :
    let tools : List ToolCall := [⟨"1", "a", "Task", none⟩, ⟨"2", "b", "Task", some "a"⟩,
      ⟨"3", "c", "Bash", some "b"⟩]
    buildGroupRows tools = [⟨⟨"1", "a", "Task", none⟩, [⟨"2", "b", "Task", some "a"⟩]⟩] ∧
      ¬KeepsTools tools (buildGroupRows tools) := by
  intro tools
  have hrows : buildGroupRows tools =
      [⟨⟨"1", "a", "Task", none⟩, [⟨"2", "b", "Task", some "a"⟩]⟩] := by decide
  refine ⟨hrows, fun h => ?_⟩
  have hlength := h.once.length_eq
  exact absurd hlength (by decide)

end Argmax.Renderer.ToolCalls
