import Mathlib.Computability.StateTransition
import RouteGeometry.Proofs.Chain.History
import RouteGeometry.Proofs.Chain.Loose

/-! # Thinning in plain numbers, step by step

The two loops of thinning as a machine that follows links which are plain numbers. It stops without
a result as soon as an element is not there or a count would fall below zero, and nothing says
beforehand that its walks end.

* `step_visit`: from a chain that keeps the promises of its type, a step is a visit;
* `step_comesFrom`, `reaches_comesFrom`: from a chain that has come about by removals there is a
  step, and so has every chain after it;
* `walk_reaches`, `run_reaches`: the machine goes through every run to its end;
* `reaches_thin`, `exists_of_reaches`: it ends with what thinning leaves and reports. -/

namespace RouteGeometry

/-- What thinning does next. -/
inductive Phase (ι : Type) where
  /-- Start a sweep if there are enough places. -/
  | between
  /-- Visit the place `at?` and those after it. `changed` tells if the sweep has taken out any. -/
  | sweeping (at? : Option ι) (changed : Bool)
  | ended
  deriving DecidableEq, Repr

namespace Phase

section
variable {ι κ : Type}

def at? : Phase ι → Option ι
  | between => none
  | sweeping at? _ => at?
  | ended => none

def map (f : ι → κ) : Phase ι → Phase κ
  | between => between
  | sweeping at? changed => sweeping (at?.map f) changed
  | ended => ended

end

end Phase

/-- Where thinning is. -/
structure Stage (β : Type) where
  chain : LooseChain β
  phase : Phase Nat
  /-- The places taken out so far, in order, with their angles. -/
  removals : List (Nat × Float)
  /-- The sweeps started so far. -/
  sweeps : Nat

namespace Stage

open StateTransition (Reaches reaches_total)

section
variable {β : Type}

def start (source? : Option β) (points : List β) (target? : Option β) : Stage β where
  chain := .ofPoints source? points target?
  phase := .between
  removals := []
  sweeps := 0

/-- Thinning of a chain whose type keeps its promises. -/
def of (nodes : List β) (c : Chain nodes.length) (phase : Phase (Fin nodes.length))
    (removals : Chain.Removals nodes.length) (sweeps : Nat) : Stage β where
  chain := c.loose nodes
  phase := phase.map Fin.val
  removals := removals.numbers
  sweeps

theorem start_eq (source? : Option β) (points : List β) (target? : Option β) :
    start source? points target? = of (source?.toList ++ points ++ target?.toList)
      (.full _ source?.isSome target?.isSome) .between [] 0 := by
  rw [start, LooseChain.ofPoints_eq]
  rfl

variable (angle : β → β → β → Float) (threshold : Float)

/-- One step of thinning. The way on is settled before the visit. -/
def step (s : Stage β) : Option (Stage β) :=
  match s.phase with
  | .between =>
    if 3 ≤ s.chain.alive then
      some { s with phase := .sweeping (some 0) false, sweeps := s.sweeps + 1 }
    else some { s with phase := .ended }
  | .sweeping none changed => some { s with phase := if changed then .between else .ended }
  | .sweeping (some i) changed => do
    let link ← s.chain.links[i]?
    let visited ← s.chain.visit angle threshold i
    return { s with
      chain := visited.1
      phase := .sweeping link.next (changed || !visited.2.isEmpty)
      removals := s.removals ++ visited.2 }
  | .ended => some s

/-! ## Steps from chains that keep their promises -/

section
variable {nodes : List β} (c : Chain nodes.length) (removals : Chain.Removals nodes.length)
  (sweeps : Nat) (changed : Bool)

theorem numbers_append (before after : Chain.Removals nodes.length) :
    Chain.Removals.numbers (before ++ after) = before.numbers ++ after.numbers :=
  List.map_append

theorem step_between_of_lt (few : c.alive < 3) :
    step angle threshold (of nodes c .between removals sweeps) =
      some (of nodes c .ended removals sweeps) :=
  if_neg (Nat.not_le_of_lt few)

theorem step_between_of_le (many : 3 ≤ c.alive) (places : 0 < nodes.length) :
    step angle threshold (of nodes c .between removals sweeps) =
      some (of nodes c (.sweeping (Chain.first? _) false) removals (sweeps + 1)) := by
  have first : (Chain.first? nodes.length).map Fin.val = some 0 := by
    rw [Chain.first?, dif_pos places]
    rfl
  rw [of, of, Phase.map, Phase.map, first]
  exact if_pos many

theorem step_arrived :
    step angle threshold (of nodes c (.sweeping none changed) removals sweeps) =
      some (of nodes c (if changed then .between else .ended) removals sweeps) := by
  cases changed <;> rfl

variable {c}

theorem step_visit {i : Fin nodes.length}
    (counted : (c.visit (Thinning.angleOf nodes.get angle) threshold i).2 = [] ∨ 0 < c.alive) :
    step angle threshold (of nodes c (.sweeping (some i) changed) removals sweeps) =
      let visited := c.visit (Thinning.angleOf nodes.get angle) threshold i
      some (of nodes visited.1 (.sweeping (c.next? i) (changed || !visited.2.isEmpty))
        (removals ++ visited.2) sweeps) := by
  have link : (c.loose nodes).links[i.val]? = _ := LooseChain.getElem?_links_loose i
  have visited := LooseChain.visit_loose angle threshold counted
  simp only [of, step, Phase.map, Option.map_some, link, visited, Option.bind_eq_bind,
    Option.bind_some, numbers_append]
  simp [Chain.Removals.numbers]

/-- From a chain that has come about by removals there is a step, and so has the chain after it. -/
theorem step_comesFrom {first : Chain nodes.length} {phase : Phase (Fin nodes.length)}
    (h : first.ComesFrom c phase.at? removals) :
    ∃ c' phase' removals' sweeps', step angle threshold (of nodes c phase removals sweeps) =
      some (of nodes c' phase' removals' sweeps') ∧
        first.ComesFrom c' phase'.at? removals' ∧ removals <+: removals' := by
  obtain ⟨live, lists⟩ := h.lists
  cases phase with
  | between =>
    by_cases many : 3 ≤ c.alive
    · have places : 0 < nodes.length := lists.pos_of_alive_pos (by omega)
      exact ⟨_, _, _, _, step_between_of_le angle threshold c removals sweeps many places,
        h.move_first, List.prefix_rfl⟩
    · have few : c.alive < 3 := Nat.lt_of_not_le many
      exact ⟨_, _, _, _, step_between_of_lt angle threshold c removals sweeps few, h,
        List.prefix_rfl⟩
  | sweeping at? changed =>
    cases at? with
    | none =>
      refine ⟨_, _, _, _, step_arrived angle threshold c removals sweeps changed, ?_,
        List.prefix_rfl⟩
      cases changed <;> exact h
    | some i =>
      have counted := lists.alive_pos ((lists.mem_iff i).2 (h.stays i rfl))
      exact ⟨_, _, _, _, step_visit angle threshold removals sweeps changed (.inr counted),
        h.visit _ threshold, List.prefix_append _ _⟩
  | ended => exact ⟨_, _, _, _, rfl, h, List.prefix_rfl⟩

end

/-! ## Runs -/

section
variable {nodes : List β} {angle threshold}

theorem numbers_injective {n : Nat} : Function.Injective (@Chain.Removals.numbers n) :=
  List.map_injective_iff.2 (Fin.val_injective.prodMap Function.injective_id)

/-- The chains of a run have come about by removals. -/
theorem reaches_comesFrom {first c : Chain nodes.length} {phase : Phase (Fin nodes.length)}
    {removals : Chain.Removals nodes.length} {sweeps : Nat} {s : Stage β}
    (h : first.ComesFrom c phase.at? removals)
    (run : Reaches (step angle threshold) (of nodes c phase removals sweeps) s) :
    ∃ c' phase' removals' sweeps', s = of nodes c' phase' removals' sweeps' ∧
      first.ComesFrom c' phase'.at? removals' ∧ removals <+: removals' := by
  induction run with
  | refl => exact ⟨_, _, _, _, rfl, h, List.prefix_rfl⟩
  | tail _ last ih =>
    obtain ⟨c', phase', removals', sweeps', rfl, h', longer⟩ := ih
    obtain ⟨c'', phase'', removals'', sweeps'', next, h'', more⟩ :=
      step_comesFrom angle threshold removals' sweeps' h'
    exact ⟨_, _, _, _, Option.some.inj (last.symm.trans next), h'', longer.trans more⟩

theorem eq_of_reaches_ended {c : Chain nodes.length} {removals : Chain.Removals nodes.length}
    {sweeps : Nat} {s : Stage β}
    (run : Reaches (step angle threshold) (of nodes c .ended removals sweeps) s) :
    s = of nodes c .ended removals sweeps := by
  induction run with
  | refl => rfl
  | tail _ last ih =>
    rw [ih] at last
    exact (Option.some.inj last).symm

theorem walk_reaches {c d : Chain nodes.length} {at? : Option (Fin nodes.length)}
    {later : Chain.Removals nodes.length}
    (walk : Chain.Walk (Thinning.angleOf nodes.get angle) threshold c at? d later)
    (changed : Bool) (removals : Chain.Removals nodes.length) (sweeps : Nat) :
    Reaches (step angle threshold) (of nodes c (.sweeping at? changed) removals sweeps)
      (of nodes d (.sweeping none (changed || !later.isEmpty)) (removals ++ later) sweeps) := by
  induction walk generalizing changed removals with
  | arrived c =>
    rw [List.isEmpty_nil, Bool.not_true, Bool.or_false, List.append_nil]
    exact .refl
  | pass stays _ ih =>
    have visited := step_visit angle threshold removals sweeps changed
      (.inl (congrArg Prod.snd stays))
    simp only [stays, List.isEmpty_nil, Bool.not_true, Bool.or_false, List.append_nil] at visited
    exact .head visited (ih changed removals)
  | @takeOut c d i found later goes counted _ ih =>
    have visited := step_visit angle threshold removals sweeps changed (i := i) (.inr counted)
    simp only [goes, List.isEmpty_cons, Bool.not_false, Bool.or_true] at visited
    have rest := ih true (removals ++ [(i, found)])
    rw [Bool.true_or, List.append_assoc, List.singleton_append] at rest
    rw [List.isEmpty_cons, Bool.not_false, Bool.or_true]
    exact .head visited rest

theorem run_reaches {c d : Chain nodes.length} {later : List (Chain.Removals nodes.length)}
    (run : Chain.Run (Thinning.angleOf nodes.get angle) threshold c d later)
    (places : 3 ≤ c.alive → 0 < nodes.length) (removals : Chain.Removals nodes.length)
    (sweeps : Nat) :
    Reaches (step angle threshold) (of nodes c .between removals sweeps)
      (of nodes d .ended (removals ++ later.flatten) (sweeps + later.length)) := by
  induction run generalizing removals sweeps with
  | short few =>
    rw [List.flatten_nil, List.append_nil]
    exact .single (step_between_of_lt angle threshold _ removals sweeps few)
  | @quiet c d many walk =>
    have started := step_between_of_le angle threshold c removals sweeps many (places many)
    have arrived := step_arrived angle threshold d (removals ++ []) (sweeps + 1) false
    exact .head started ((walk_reaches walk false removals (sweeps + 1)).tail arrived)
  | @again c d e found later many walk busy _ ih =>
    have started := step_between_of_le angle threshold c removals sweeps many (places many)
    have swept := walk_reaches walk false removals (sweeps + 1)
    have changed : (false || !found.isEmpty) = true := by simpa using busy
    rw [changed] at swept
    have arrived := step_arrived angle threshold d (removals ++ found) (sweeps + 1) true
    have rest := ih (fun _ => places many) (removals ++ found) (sweeps + 1)
    rw [List.append_assoc, ← List.flatten_cons, Nat.add_assoc, Nat.add_comm 1] at rest
    exact .head started (swept.trans (.head arrived rest))

section
variable {c : Chain nodes.length} {live : List (Fin nodes.length)} (lists : c.Lists live)

include lists

/-- The machine ends with what thinning leaves and reports. -/
theorem reaches_thin :
    let thinned := c.thin (Thinning.angleOf nodes.get angle) threshold
    Reaches (step angle threshold) (of nodes c .between [] 0)
      (of nodes thinned.1 .ended thinned.2.flatten thinned.2.length) := by
  intro thinned
  have run : Chain.Run (Thinning.angleOf nodes.get angle) threshold c thinned.1 thinned.2 :=
    lists.run_thin
  have reached := run_reaches run (fun many => lists.pos_of_alive_pos (by omega)) [] 0
  rwa [List.nil_append, Nat.zero_add] at reached

/-- The machine is on its way through the removals that thinning reports. -/
theorem exists_of_reaches {s : Stage β}
    (run : Reaches (step angle threshold) (of nodes c .between [] 0) s) :
    ∃ d phase removals sweeps, s = of nodes d phase removals sweeps ∧
      c.ComesFrom d phase.at? removals ∧
        removals <+: (c.thin (Thinning.angleOf nodes.get angle) threshold).2.flatten := by
  have begins : c.ComesFrom c Phase.between.at? [] := .refl lists
  obtain ⟨d, phase, removals, sweeps, rfl, h, -⟩ := reaches_comesFrom begins run
  refine ⟨d, phase, removals, sweeps, rfl, h, ?_⟩
  rcases reaches_total run (reaches_thin lists) with later | earlier
  · obtain ⟨d', phase', removals', sweeps', same, -, longer⟩ := reaches_comesFrom h later
    rwa [numbers_injective (congrArg Stage.removals same)]
  · have same := eq_of_reaches_ended earlier
    rw [numbers_injective (congrArg Stage.removals same)]

end

end

end

end Stage

end RouteGeometry
