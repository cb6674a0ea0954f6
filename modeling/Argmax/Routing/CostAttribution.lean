import Argmax.Routing.Cost

/-!
# Whom the router cost charges

The windows of a chat follow one another, so a time of the chat is in at most one of them, and in
none that a pin has closed. A row is charged to the one turn of its window that it is found in.
The counts of a tier are sums over the windows that were added to it.
-/

namespace Argmax.Routing

open Argmax.Lib Argmax.Providers Argmax.Usage
open Argmax.Providers.SendInput (AutoTier)

/-- A usage row, or an estimated call of a chat on Cursor. -/
inductive Charge where
  | usage (row : UsageRow)
  | estimate (sessionId : String) (call : EstimatedCall)

namespace Charge

def sessionId : Charge → String
  | .usage row => row.sessionId
  | .estimate sessionId _ => sessionId

def time : Charge → String
  | .usage row => row.createdAt
  | .estimate _ call => call.createdAt

def cost (prices : Prices) (route : RouteRow) : Charge → TurnCost
  | .usage row => usageCost prices route.provider row.modelId row.counts row.costUsd
  | .estimate _ call => (prices.cursor route.modelId call.createdAt).map (·.cost call)

def output : Charge → ℕ
  | .usage row => row.counts.output
  | .estimate _ call => call.output

end Charge

/-- What a window charges: estimated calls on Cursor, usage rows elsewhere. -/
def Window.charges (tables : Tables) (window : Window) : List Charge :=
  if window.route.provider = .cursor then
    (window.cursorCalls tables).map (.estimate window.route.sessionId)
  else (window.usageRows tables).map .usage

/-- A charge goes to a turn of a window, both given by their place. -/
def Charged (tables : Tables) (start : String) (place : ℕ × ℕ) (charge : Charge) : Prop :=
  ∃ window, (allWindows tables start)[place.1]? = some window ∧ window.admitted start ∧
    charge ∈ window.charges tables ∧
    turnIndex (window.unpriced tables) charge.time = some place.2

/-- The turns that count to a tier. -/
def tierTurns (tables : Tables) (prices : Prices) (start : String) (tier : AutoTier) :
    List RouteTurn :=
  ((entries tables prices start).filter (·.route.tier = tier)).flatMap (·.turns)

/-- The counts of a tier add up. -/
structure AddsUp (turns : List RouteTurn) (cost : RouterTierCost) : Prop where
  count : cost.turns = turns.length
  unpriced : cost.unpricedTurns = turns.countP (·.cost.isNone)
  /-- A turn is priced or unpriced. -/
  priced : turns.countP (·.cost.isSome) + cost.unpricedTurns = cost.turns
  models : (cost.models.map (·.turns)).sum = cost.turns
  decisions : (cost.decisions.map (·.turns)).sum = cost.turns

/-- What the attribution is for. -/
structure Attributed (tables : Tables) (prices : Prices) (start : String) : Prop where
  /-- Nothing is charged to two turns. -/
  once : ∀ charge place place', Charged tables start place charge →
    Charged tables start place' charge → place = place'
  /-- The usage of a turn is what is charged to it. -/
  billed : ∀ (window : Window) (index : ℕ),
    (window.priced tables prices)[index]? = (window.unpriced tables)[index]?.map fun turn =>
      ((window.charges tables).filter fun charge =>
        turnIndex (window.unpriced tables) charge.time = some index).foldl
          (fun turn charge => turn.addUsage (charge.cost prices window.route) charge.output) turn
  /-- No pin lies between a route and what is charged to it. -/
  pins : ∀ charge place window, Charged tables start place charge →
    (allWindows tables start)[place.1]? = some window → ∀ pin ∈ tables.routes,
    pin.decision = .pinned → pin.sessionId = charge.sessionId → window.route.key < pin.key →
    charge.time < pin.createdAt
  tiers : ∀ costs, routerCost tables prices start = some costs → ∀ cost ∈ costs,
    AddsUp (tierTurns tables prices start cost.tier) cost

/-! ## Charging turns -/

section Charges

variable {α : Type*} {time : α → String} {cost : α → TurnCost} {output : α → ℕ}

theorem turnIndex_modify (turns : List RouteTurn) (index : ℕ) (cost : TurnCost) (output : ℕ)
    (at' : String) :
    turnIndex (turns.modify index (·.addUsage cost output)) at' = turnIndex turns at' := by
  have hfind : ∀ turns : List RouteTurn, turns.findIdx (fun turn => decide (at' < turn.startAt)) =
      (turns.map (·.startAt)).findIdx fun start => decide (at' < start) := by
    intro turns
    rw [List.findIdx_map]
    rfl
  have hstarts : (turns.modify index (·.addUsage cost output)).map (·.startAt) =
      turns.map (·.startAt) := by
    apply List.ext_getElem?
    intro k
    rw [List.getElem?_map, List.getElem?_modify]
    split <;> simp [Function.comp_def]
  rw [turnIndex, turnIndex, hfind, hfind, hstarts]

/-- A turn takes up the rows that are found in it, in their order. -/
theorem chargeTurns_getElem? (turns : List RouteTurn) (rows : List α) (index : ℕ) :
    (chargeTurns time cost output turns rows)[index]? = turns[index]?.map fun turn =>
      (rows.filter fun row => turnIndex turns (time row) = some index).foldl
        (fun turn row => turn.addUsage (cost row) (output row)) turn := by
  induction rows generalizing turns with
  | nil => simp [chargeTurns]
  | cons row rows ih =>
    rw [chargeTurns, List.foldl_cons]
    cases hindex : turnIndex turns (time row) with
    | none =>
      rw [List.filter_cons_of_neg (by simp [hindex])]
      exact ih turns
    | some found =>
      have hrest := ih (turns.modify found (·.addUsage (cost row) (output row)))
      simp only [turnIndex_modify] at hrest
      rw [chargeTurns] at hrest
      rw [hrest]
      by_cases hfound : found = index
      · rw [List.filter_cons_of_pos (by simp [hindex, hfound]), hfound]
        simp [Function.comp_def]
      · rw [List.filter_cons_of_neg (by simp [hindex, hfound])]
        simp [hfound]

end Charges

theorem priced_eq (tables : Tables) (prices : Prices) (window : Window) :
    window.priced tables prices = chargeTurns Charge.time (Charge.cost prices window.route)
      Charge.output (window.unpriced tables) (window.charges tables) := by
  rw [Window.priced, Window.charges]
  split <;> simp [priceCursorTurns, priceMeasuredTurns, chargeTurns, List.foldl_map, Charge.time,
    Charge.cost, Charge.output]

/-! ## The windows of a chat follow one another -/

/-- The windows of the rows of all chats: a window runs up to the next row, if that is of the
same chat. -/
def windowsOf : List RouteRow → List Window
  | [] => []
  | route :: later =>
    ⟨route, (later.head?.filter (sameChat route)).map (·.createdAt)⟩ :: windowsOf later

/-- The rows of one chat, before those of others. -/
theorem windowsOf_append {chat rest : List RouteRow} (hne : chat ≠ [])
    (hchat : chat.IsChain fun left right => sameChat left right = true)
    (hrest : ∀ last ∈ chat.getLast?, ∀ next ∈ rest.head?, sameChat last next = false) :
    windowsOf (chat ++ rest) = windows chat ++ windowsOf rest := by
  induction chat with
  | nil => exact absurd rfl hne
  | cons route later ih =>
    cases later with
    | nil =>
      cases hhead : rest.head? with
      | none => simp [windowsOf, windows, hhead]
      | some next =>
        have hother := hrest route (by simp) next hhead
        simp [windowsOf, windows, hhead, hother]
    | cons next later =>
      rw [List.isChain_cons_cons] at hchat
      rw [List.cons_append, windowsOf, windows, ih (by simp) hchat.2 (by simpa using hrest)]
      simp [hchat.1]

theorem flatMap_windows {chats : List (List RouteRow)} (hne : [] ∉ chats)
    (hchat : ∀ chat ∈ chats, chat.IsChain fun left right => sameChat left right = true)
    (hnext : chats.IsChain fun a b => ∃ ha hb, sameChat (a.getLast ha) (b.head hb) = false) :
    chats.flatMap windows = windowsOf chats.flatten := by
  induction chats with
  | nil => rfl
  | cons chat chats ih =>
    rw [List.mem_cons, not_or] at hne
    have hrest := ih hne.2 (fun other h => hchat other (List.mem_cons_of_mem _ h)) hnext.tail
    rw [List.flatMap_cons, List.flatten_cons, hrest,
      windowsOf_append (Ne.symm hne.1) (hchat chat List.mem_cons_self)]
    intro last hlast next hhead
    cases chats with
    | nil => simp at hhead
    | cons other chats =>
      have ⟨ha, hb, hdiffer⟩ := (List.isChain_cons_cons.mp hnext).1
      rw [List.getLast?_eq_some_getLast ha, Option.mem_some] at hlast
      rw [List.flatten_cons, List.head?_append_of_ne_nil _ hb, List.head?_eq_some_head hb,
        Option.mem_some] at hhead
      rw [← hlast, ← hhead]
      exact hdiffer

theorem allWindows_eq (tables : Tables) (start : String) :
    allWindows tables start = windowsOf (routesOfSessionsRoutedSince tables.routes start) := by
  rw [allWindows, flatMap_windows (List.nil_notMem_splitBy _ _)
    (fun _ h => List.isChain_of_mem_splitBy h) (List.isChain_getLast_head_splitBy _ _),
    List.flatten_splitBy]

@[simp] theorem windowsOf_route (routes : List RouteRow) :
    (windowsOf routes).map (·.route) = routes := by
  induction routes with
  | nil => rfl
  | cons route later ih => simp [windowsOf, ih]

theorem key_le_iff {a b : RouteRow} : a.key ≤ b.key ↔ a.sessionId < b.sessionId ∨
    a.sessionId = b.sessionId ∧ (a.createdAt < b.createdAt ∨
      a.createdAt = b.createdAt ∧ a.id ≤ b.id) := by
  rw [RouteRow.key, RouteRow.key, Prod.Lex.toLex_le_toLex, Prod.Lex.toLex_le_toLex]

theorem sessionId_le {a b : RouteRow} (h : a.key ≤ b.key) : a.sessionId ≤ b.sessionId := by
  rcases key_le_iff.mp h with hlt | ⟨heq, _⟩
  · exact hlt.le
  · exact heq.le

theorem createdAt_le {a b : RouteRow} (h : a.key ≤ b.key) (hsession : a.sessionId = b.sessionId) :
    a.createdAt ≤ b.createdAt := by
  rcases key_le_iff.mp h with hlt | ⟨_, hlt | ⟨heq, _⟩⟩
  · exact absurd hsession hlt.ne
  · exact hlt.le
  · exact heq.le

/-- A window ends before a later one of the same chat begins. -/
def Precedes (a b : Window) : Prop :=
  a.route.sessionId = b.route.sessionId → ∃ stop, a.until' = some stop ∧ stop ≤ b.route.createdAt

theorem windowsOf_precede {routes : List RouteRow}
    (hsorted : routes.Pairwise fun a b => a.key ≤ b.key) :
    (windowsOf routes).Pairwise Precedes := by
  induction routes with
  | nil => exact List.Pairwise.nil
  | cons route later ih =>
    rw [List.pairwise_cons] at hsorted
    rw [windowsOf, List.pairwise_cons]
    refine ⟨fun window hwindow hsession => ?_, ih hsorted.2⟩
    have hmem : window.route ∈ later := by
      rw [← windowsOf_route later]
      exact List.mem_map_of_mem hwindow
    cases later with
    | nil => simp at hmem
    | cons next later =>
      have hnext := hsorted.1 next List.mem_cons_self
      have hlast : next.key ≤ window.route.key := by
        rcases List.mem_cons.mp hmem with heq | hlater
        · rw [heq]
        · exact (List.pairwise_cons.mp hsorted.2).1 _ hlater
      have hsame : route.sessionId = next.sessionId :=
        le_antisymm (sessionId_le hnext) ((sessionId_le hlast).trans hsession.ge)
      exact ⟨next.createdAt, by simp [sameChat, hsame],
        createdAt_le hlast (hsame.symm.trans hsession)⟩

theorem routesOfSessionsRoutedSince_sorted (routes : List RouteRow) (start : String) :
    (routesOfSessionsRoutedSince routes start).Pairwise fun a b => a.key ≤ b.key := by
  have hsort := @List.pairwise_mergeSort _ inOrder (fun a b c => by simpa [inOrder] using le_trans)
    (fun a b => by simpa [inOrder] using le_total a.key b.key)
    (routes.filter fun route => routes.any fun other =>
      other.sessionId == route.sessionId && decide (start ≤ other.createdAt))
  simpa [routesOfSessionsRoutedSince, inOrder] using hsort

theorem allWindows_precede (tables : Tables) (start : String) :
    (allWindows tables start).Pairwise Precedes := by
  rw [allWindows_eq]
  exact windowsOf_precede (routesOfSessionsRoutedSince_sorted _ _)

/-! ## Charges and their windows -/

variable {tables : Tables} {charge : Charge} {a : Window} {start : String}

/-- What a window charges lies in it. -/
theorem Window.of_mem_charges {window : Window} (h : charge ∈ window.charges tables) :
    charge.sessionId = window.route.sessionId ∧
      inWindow window.route.createdAt window.until' charge.time = true := by
  rw [Window.charges] at h
  split at h
  · obtain ⟨call, hcall, rfl⟩ := List.mem_map.mp h
    exact ⟨rfl, (List.mem_filter.mp hcall).2⟩
  · obtain ⟨row, hrow, rfl⟩ := List.mem_map.mp h
    rw [Window.usageRows, List.mem_mergeSort, List.mem_filter, Bool.and_eq_true, beq_iff_eq] at hrow
    exact hrow.2

/-- Nothing lies in two windows of a chat. -/
theorem Precedes.lt {b : Window} (h : Precedes a b) (hcharge : charge ∈ a.charges tables)
    (hsession : a.route.sessionId = b.route.sessionId) : charge.time < b.route.createdAt := by
  have ⟨stop, hstop, hle⟩ := h hsession
  have hin := inWindow_iff.mp (Window.of_mem_charges hcharge).2
  exact lt_of_lt_of_le (hin.2 stop hstop) hle

theorem precedes_of_lt {i j : ℕ} {b : Window} (ha : (allWindows tables start)[i]? = some a)
    (hb : (allWindows tables start)[j]? = some b) (h : i < j) : Precedes a b := by
  have hpairwise := List.pairwise_iff_getElem.mp (allWindows_precede tables start)
  have ⟨hi, hai⟩ := List.getElem?_eq_some_iff.mp ha
  have ⟨hj, hbj⟩ := List.getElem?_eq_some_iff.mp hb
  rw [← hai, ← hbj]
  exact hpairwise i j hi hj h

theorem charged_once {place place' : ℕ × ℕ} (h : Charged tables start place charge)
    (h' : Charged tables start place' charge) : place = place' := by
  have ⟨a, ha, _, hina, hindexa⟩ := h
  have ⟨b, hb, _, hinb, hindexb⟩ := h'
  have hsession : a.route.sessionId = b.route.sessionId :=
    (Window.of_mem_charges hina).1.symm.trans (Window.of_mem_charges hinb).1
  have hstarta := (inWindow_iff.mp (Window.of_mem_charges hina).2).1
  have hstartb := (inWindow_iff.mp (Window.of_mem_charges hinb).2).1
  have hplace : place.1 = place'.1 := by
    rcases Nat.lt_trichotomy place.1 place'.1 with hlt | heq | hgt
    · exact absurd ((precedes_of_lt ha hb hlt).lt hina hsession) hstartb.not_gt
    · exact heq
    · exact absurd ((precedes_of_lt hb ha hgt).lt hinb hsession.symm) hstarta.not_gt
  rw [hplace, hb, Option.some.injEq] at ha
  rw [← ha, hindexb, Option.some.injEq] at hindexa
  exact Prod.ext hplace hindexa.symm

theorem allWindows_route (tables : Tables) (start : String) :
    (allWindows tables start).map (·.route) = routesOfSessionsRoutedSince tables.routes start := by
  rw [allWindows_eq, windowsOf_route]

/-- A row of a routed chat is the row of a window. -/
theorem exists_window (ha : a ∈ allWindows tables start) {pin : RouteRow}
    (hpin : pin ∈ tables.routes) (hsession : pin.sessionId = a.route.sessionId) :
    ∃ b ∈ allWindows tables start, b.route = pin := by
  have hroute : a.route ∈ routesOfSessionsRoutedSince tables.routes start := by
    rw [← allWindows_route]
    exact List.mem_map_of_mem ha
  have hrouted : pin ∈ routesOfSessionsRoutedSince tables.routes start := by
    rw [routesOfSessionsRoutedSince, List.mem_mergeSort, List.mem_filter] at hroute ⊢
    rw [hsession]
    exact ⟨hpin, hroute.2⟩
  rw [← allWindows_route] at hrouted
  exact List.mem_map.mp hrouted

/-- The windows are in the order of their rows. -/
theorem lt_of_key_lt {i j : ℕ} {b : Window} (ha : (allWindows tables start)[i]? = some a)
    (hb : (allWindows tables start)[j]? = some b) (h : a.route.key < b.route.key) : i < j := by
  have hsorted : (allWindows tables start).Pairwise fun a b => a.route.key ≤ b.route.key := by
    have hroutes := routesOfSessionsRoutedSince_sorted tables.routes start
    rwa [← allWindows_route, List.pairwise_map] at hroutes
  have ⟨hi, hai⟩ := List.getElem?_eq_some_iff.mp ha
  have ⟨hj, hbj⟩ := List.getElem?_eq_some_iff.mp hb
  by_contra hge
  rcases Nat.eq_or_lt_of_le (Nat.not_lt.mp hge) with heq | hgt
  · subst heq
    rw [← hai, ← hbj] at h
    exact lt_irrefl _ h
  · have hle := List.pairwise_iff_getElem.mp hsorted j i hj hi hgt
    rw [hai, hbj] at hle
    exact h.not_ge hle

theorem charged_before_pin {place : ℕ × ℕ} {window : Window} (h : Charged tables start place charge)
    (hwindow : (allWindows tables start)[place.1]? = some window) {pin : RouteRow}
    (hpin : pin ∈ tables.routes) (hsession : pin.sessionId = charge.sessionId)
    (hafter : window.route.key < pin.key) : charge.time < pin.createdAt := by
  have ⟨a, ha, _, hin, _⟩ := h
  rw [hwindow, Option.some.injEq] at ha
  subst ha
  have hchat := hsession.trans (Window.of_mem_charges hin).1
  have ⟨b, hmem, hroute⟩ := exists_window (List.mem_of_getElem? hwindow) hpin hchat
  have ⟨j, hj⟩ := List.mem_iff_getElem?.mp hmem
  rw [← hroute] at hafter hchat ⊢
  have hlt := lt_of_key_lt hwindow hj hafter
  exact (precedes_of_lt hwindow hj hlt).lt hin hchat.symm

/-! ## The counts of a tier -/

theorem AddsUp.add {turns : List RouteTurn} {tally : TierTally} (h : AddsUp turns tally.cost)
    (entry : Entry) : AddsUp (turns ++ entry.turns) (tally.add entry).cost where
  count := by simp [TierTally.add, h.count]
  unpriced := by simp [TierTally.add, h.unpriced]
  priced := by
    have hparts : entry.turns.length = entry.turns.countP (·.cost.isSome) +
        entry.turns.countP (·.cost.isNone) := by
      rw [List.length_eq_countP_add_countP fun turn : RouteTurn => turn.cost.isSome]
      congr 2
      ext turn
      cases turn.cost <;> rfl
    have hpriced := h.priced
    simp only [TierTally.add, List.countP_append]
    omega
  models := by
    simp only [TierTally.add]
    rw [← h.models]
    exact sum_upsert (g := RouterModelCost.turns) (fun _ => rfl) rfl _
  decisions := by
    simp only [TierTally.add]
    rw [← h.decisions]
    exact sum_upsert (g := RouterDecisionSummary.turns) (fun _ => rfl) rfl _

/-- A tally counts what was added to it. -/
theorem foldl_add (tier : AutoTier) (entries : List Entry) :
    AddsUp (entries.flatMap (·.turns)) (entries.foldl TierTally.add (.new tier)).cost := by
  induction entries using List.reverseRecOn with
  | nil => exact ⟨rfl, rfl, rfl, rfl, rfl⟩
  | append_singleton entries entry ih =>
    rw [List.foldl_append, List.flatMap_append, List.flatMap_singleton]
    exact ih.add entry

theorem foldl_tier (tier : AutoTier) (entries : List Entry) :
    (entries.foldl TierTally.add (.new tier)).cost.tier = tier := by
  induction entries using List.reverseRecOn with
  | nil => rfl
  | append_singleton entries entry ih =>
    rw [List.foldl_append]
    exact ih

theorem AddsUp.finish {turns : List RouteTurn} {tally : TierTally} (h : AddsUp turns tally.cost) :
    AddsUp turns tally.finish where
  count := h.count
  unpriced := h.unpriced
  priced := h.priced
  models := by
    rw [show tally.finish.turns = tally.cost.turns from rfl, ← h.models]
    exact ((List.mergeSort_perm _ _).map _).sum_eq
  decisions := by
    rw [show tally.finish.turns = tally.cost.turns from rfl, ← h.decisions]
    exact ((List.mergeSort_perm _ _).map _).sum_eq

/-- The tally of a tier takes up the entries of the tier. -/
theorem foldl_tiers (tier : AutoTier) (entries : List Entry) :
    ((entries.foldl Tiers.add fun _ => none) tier).getD (.new tier) =
      (entries.filter (·.route.tier = tier)).foldl TierTally.add (.new tier) := by
  induction entries using List.reverseRecOn with
  | nil => rfl
  | append_singleton entries entry ih =>
    rw [List.foldl_append, List.foldl_cons, List.filter_append, List.foldl_append, ← ih, Tiers.add]
    by_cases htier : entry.route.tier = tier
    · subst htier
      simp
    · simp [htier, Function.update_of_ne (Ne.symm htier)]

/-- **No usage row is charged to two turns or across a pin, and the counts of every tier add
up.** -/
theorem router_cost_attributed (tables : Tables) (prices : Prices) (start : String) :
    Attributed tables prices start where
  once _ _ _ h h' := charged_once h h'
  billed window index := by
    rw [priced_eq, chargeTurns_getElem?]
  pins charge place window h hwindow pin hpin _ hsession hafter :=
    charged_before_pin h hwindow hpin hsession hafter
  tiers costs hcosts cost hcost := by
    rw [routerCost] at hcosts
    split at hcosts
    · simp at hcosts
    split at hcosts
    · simp at hcosts
    simp only [Option.some.injEq] at hcosts
    rw [← hcosts, List.mem_filterMap] at hcost
    have ⟨tier, _, hfinish⟩ := hcost
    have ⟨tally, htally, heq⟩ := Option.map_eq_some_iff.mp hfinish
    have hfold := foldl_tiers tier (entries tables prices start)
    rw [htally, Option.getD_some] at hfold
    have hcosttier : cost.tier = tier := by
      rw [← heq, hfold]
      exact foldl_tier _ _
    rw [hcosttier, ← heq, hfold]
    exact (foldl_add _ _).finish

end Argmax.Routing
