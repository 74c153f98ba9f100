import RouteGeometry.Proofs.Chain.Stages

/-! # The chain of a polyline stays well linked

Every chain on the way of a normalization is well linked, and in plain numbers no link, no flag and
no point is looked up where there is none. -/

namespace RouteGeometry

namespace Polyline

section
variable {α : Type} (angle : Point α 2 → Point α 2 → Point α 2 → Float) (l : Polyline α)
  (n : Normalization α)

abbrev fullChain : Chain (l.nodes n).length :=
  .full _ n.source?.isSome n.target?.isSome

def takenOut : List (Fin (l.nodes n).length) :=
  Chain.Removals.places (l.thinnedChain angle n).2.flatten

/-- The chain of the nodes after the first `k` removals. -/
def chainAfter (k : Nat) : Chain (l.nodes n).length :=
  (l.fullChain n).without ((l.takenOut angle n).take k)

theorem lists_fullChain : (l.fullChain n).Lists (List.finRange (l.nodes n).length) :=
  Chain.lists_full _ _ _

theorem comesFrom_thinnedChain : (l.fullChain n).ComesFrom (l.thinnedChain angle n).1 none
    (l.thinnedChain angle n).2.flatten :=
  (l.lists_fullChain n).comesFrom_thin

/-- In plain numbers the chain has flags for all points between the anchors. -/
theorem survivors_chainAfter (k : Nat) :
    ((l.chainAfter angle n k).loose (l.nodes n)).survivors =
      some (l.chainAfter angle n k).survivors := by
  obtain ⟨source, target⟩ := (l.fullChain n).anchors_without ((l.takenOut angle n).take k)
  have sizes := length_nodes l n
  rw [Option.length_toList, Option.length_toList] at sizes
  apply LooseChain.survivors_loose
  rw [chainAfter, source, target]
  change n.source?.isSome.toNat + n.target?.isSome.toNat ≤ _
  rw [Bool.toNat, Bool.toNat, Bool.cond_eq_ite, Bool.cond_eq_ite]
  omega

variable {angle l n}

/-- In plain numbers thinning goes on from every chain on its way, and each is one of these. -/
theorem exists_chainAfter_of_reaches {s : Stage (Point α 2)}
    (run : StateTransition.Reaches (Stage.step angle n.minAngle.radians)
      (.start n.source? l.points n.target?) s) :
    (s.step angle n.minAngle.radians).isSome = true ∧
      ∃ k, s.chain = (l.chainAfter angle n k).loose (l.nodes n) := by
  rw [Stage.start_eq] at run
  obtain ⟨d, phase, removals, sweeps, rfl, h, rest, whole⟩ :=
    Stage.exists_of_reaches (l.lists_fullChain n) run
  constructor
  · obtain ⟨d', phase', removals', sweeps', next, -⟩ :=
      Stage.step_comesFrom angle n.minAngle.radians removals sweeps h
    exact Option.isSome_of_eq_some next
  · refine ⟨removals.places.length, ?_⟩
    have places : l.takenOut angle n = removals.places ++ Chain.Removals.places rest := by
      rw [takenOut, ← Chain.places_append, whole]
    rw [chainAfter, places, List.take_left, h.without_eq]
    rfl

variable (angle l n)

/-- **A chain stays well linked.** Whatever angles are found, after each removal the links, the
flags and the count of places agree with each other, and no place is taken out twice. In plain
numbers thinning goes through these chains and no others. It is never stuck, so it looks nothing up
and cuts nothing out where there is nothing, and it ends with what thinning leaves and reports. -/
theorem chainAfter_wellLinked :
    let step := Stage.step angle n.minAngle.radians
    let start := Stage.start n.source? l.points n.target?
    let thinned := l.thinnedChain angle n
    (∀ k, (l.chainAfter angle n k).WellLinked) ∧ (l.takenOut angle n).Nodup ∧
      l.chainAfter angle n (l.takenOut angle n).length = thinned.1 ∧
      (∀ s, StateTransition.Reaches step start s → (step s).isSome = true ∧
        ∃ k, s.chain = (l.chainAfter angle n k).loose (l.nodes n) ∧
          s.chain.survivors = some (l.chainAfter angle n k).survivors) ∧
      StateTransition.Reaches step start
        (.of (l.nodes n) thinned.1 .ended thinned.2.flatten thinned.2.length) := by
  intro step start thinned
  have history := comesFrom_thinnedChain angle l n
  refine ⟨fun k => ?_, history.nodup, ?_, fun s run => ?_, ?_⟩
  · obtain ⟨live, lists⟩ := history.lists_take k
    exact lists.wellLinked
  · rw [chainAfter, List.take_length]
    exact history.without_eq
  · obtain ⟨goes, k, chain⟩ := exists_chainAfter_of_reaches run
    exact ⟨goes, k, chain, chain ▸ survivors_chainAfter angle l n k⟩
  · have begins : start = _ := Stage.start_eq n.source? l.points n.target?
    rw [begins]
    exact Stage.reaches_thin (l.lists_fullChain n)

end

end Polyline

end RouteGeometry
