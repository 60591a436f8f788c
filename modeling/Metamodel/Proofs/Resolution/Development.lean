import Metamodel.Proofs.Resolution.Step

/-!
# Developments

A development settles what is pending one by one until nothing is. If a graph has one, then every
order leads there. A graph that has settled some of what the development settles is `Between`: each
attempt in it waits or settles what the development settles (`Between.settles`), none fails
(`Between.not_fails`), and as long as something is pending, some attempt does not wait
(`Development.exists_yields`).
-/

namespace Metamodel

open Relation (ReflTransGen)

namespace Graph

variable {start goal graph before after : Graph} {prop : Property} {key : PropKey}
  {settlement : Settlement}

/-- A graph in which nothing is pending comes from another by settling one property at a time. -/
structure Development (start goal : Graph) : Prop where
  proceeds : ReflTransGen Proceeds start goal
  pending_eq : goal.pending = []

/-- A graph has settled some of what is settled from a start to a goal, and to the same. -/
structure Between (start goal graph : Graph) : Prop where
  left : start.Below graph
  right : graph.Below goal

/-- The property at a key is settled to something, in whichever round. -/
def Holds (graph : Graph) (key : PropKey) (settlement : Settlement) : Prop :=
  (graph.timeless.prop? key).map (·.resolution) =
    some (.resolved 0 settlement.target settlement.dependencies)

/-- What a property is settled to it is settled to later. -/
theorem Below.holds (h : before.Below after) (hkey : key ∉ before.pending)
    (hholds : before.Holds key settlement) : after.Holds key settlement := by
  rw [Holds, h.kept hkey]
  exact hholds

/-- After it is settled, a property is settled to that. -/
theorem holds_setResolution (hkey : key ∈ graph.pending) (round : Nat) :
    (graph.setResolution key
      (.resolved round settlement.target settlement.dependencies)).Holds key settlement := by
  obtain ⟨prop, hprop, -⟩ := mem_pending.1 hkey
  rw [Holds, prop?_timeless, prop?_setResolution, if_pos rfl, hprop]
  rfl

theorem not_mem_pending_setResolution (round : Nat) :
    key ∉ (graph.setResolution key
      (.resolved round settlement.target settlement.dependencies)).pending := by
  rw [mem_pending]
  rintro ⟨prop, hprop, hpending⟩
  rw [prop?_setResolution, if_pos rfl, Option.map_eq_some_iff] at hprop
  obtain ⟨_, -, rfl⟩ := hprop
  cases hpending

/-- A graph stays below another when it settles what the other has settled, and to the same. -/
theorem Below.setResolution (h : graph.Below goal) (hgoal : goal.Holds key settlement)
    (round : Nat) :
    (graph.setResolution key
      (.resolved round settlement.target settlement.dependencies)).Below goal where
  fresh_eq := by rw [fresh_setResolution, h.fresh_eq]
  kept := by
    intro other hother
    rw [prop?_timeless, prop?_timeless, prop?_setResolution]
    split
    · next hsame =>
      subst hsame
      rw [Holds, prop?_timeless, Option.map_map, Option.map_eq_some_iff] at hgoal
      obtain ⟨prop', hprop', hresolution⟩ := hgoal
      obtain ⟨prop, hprop, hfresh⟩ := exists_prop?_of_fresh h.fresh_eq.symm hprop'
      have hresolution : prop'.resolution.timeless =
          .resolved 0 settlement.target settlement.dependencies := hresolution
      rw [hprop, hprop', Option.map_some, Option.map_some, Option.map_some]
      congr 1
      calc prop'.timeless
        _ = { prop'.fresh with resolution := prop'.resolution.timeless } := rfl
        _ = { prop.fresh with
              resolution := .resolved 0 settlement.target settlement.dependencies } := by
          rw [hresolution, hfresh]
    · next hdistinct =>
      rw [← prop?_timeless, ← prop?_timeless]
      refine h.kept fun hpending => hother ?_
      rwa [Graph.mem_pending, prop?_setResolution, if_neg hdistinct, ← Graph.mem_pending]

namespace Development

/-- Nothing that is settled at the start or on the way is undone. -/
theorem below (h : Development start goal) : start.Below goal :=
  (advances_of_proceeds h.proceeds).below

/-- What is pending at the start is settled at the goal, to what an attempt gives there. -/
theorem exists_holds (h : Development start goal) (hkey : key ∈ start.pending) :
    ∃ settlement, goal.Yields key settlement ∧ goal.Holds key settlement := by
  obtain ⟨hproceeds, hdone⟩ := h
  induction hproceeds using ReflTransGen.head_induction_on with
  | refl =>
    rw [hdone] at hkey
    cases hkey
  | @head first second hfirst hrest ih =>
    have hbelow := (advances_of_proceeds hrest).below
    by_cases hpending : key ∈ second.pending
    · exact ih hpending
    · -- this is the property that the first of the steps settles
      have hadvances := hfirst.advances
      cases hfirst with
      | @settles key' settlement round hkey' hyields =>
        have hsame : key' = key := by
          by_contra hdistinct
          rw [mem_pending, prop?_setResolution, if_neg hdistinct, ← mem_pending] at hpending
          exact hpending hkey
        subst hsame
        exact ⟨settlement, hbelow.yields (hadvances.below.yields hyields),
          hbelow.holds hpending (holds_setResolution hkey' round)⟩

/-- As long as something is pending between a start and a goal, some attempt at a pending property
does not wait. -/
theorem exists_yields (h : Development start goal) (hbetween : Between start goal graph)
    (hne : graph.pending ≠ []) :
    ∃ key ∈ graph.pending, ∃ settlement, graph.Yields key settlement := by
  obtain ⟨hproceeds, hdone⟩ := h
  obtain ⟨hleft, hright⟩ := hbetween
  induction hproceeds using ReflTransGen.head_induction_on with
  | refl =>
    obtain ⟨key, hkey⟩ := List.exists_mem_of_ne_nil _ hne
    have hpending := hleft.mem_pending hkey
    rw [hdone] at hpending
    cases hpending
  | @head first second hfirst hrest ih =>
    have hbelow := (advances_of_proceeds hrest).below
    cases hfirst with
    | @settles key settlement round hkey hyields =>
      by_cases hpending : key ∈ graph.pending
      · exact ⟨key, hpending, settlement, hleft.yields hyields⟩
      · -- the graph has settled this one already, to what it is settled to at the goal
        refine ih (hleft.setResolution ?_ round)
        have hgoal : goal.Holds key settlement :=
          hbelow.holds (not_mem_pending_setResolution round) (holds_setResolution hkey round)
        rwa [Holds, ← hright.kept hpending]

end Development

namespace Between

/-- The start is between the start and the goal. -/
theorem of_start (h : Development start goal) : Between start goal start :=
  ⟨.refl _, h.below⟩

/-- An attempt at a pending property settles what is settled at the goal. -/
theorem settles (h : Between start goal graph) (hdevelopment : Development start goal)
    (hpending : key ∈ graph.pending) (hyields : graph.Yields key settlement) (round : Nat) :
    Between start goal (graph.setResolution key
      (.resolved round settlement.target settlement.dependencies)) := by
  obtain ⟨settlement', hyields', hholds⟩ := hdevelopment.exists_holds (h.left.mem_pending hpending)
  obtain rfl := (h.right.yields hyields).unique hyields'
  exact ⟨h.left.trans (Advances.setResolution hpending _).below, h.right.setResolution hholds round⟩

/-- No attempt at a pending property fails. -/
theorem not_fails (h : Between start goal graph) (hdevelopment : Development start goal)
    (hkey : graph.prop? key = some prop) (hpending : prop.resolution = .pending) (fault : Fault) :
    graph.attempt prop ≠ .error fault := by
  intro hattempt
  have hmem : key ∈ graph.pending := mem_pending.2 ⟨prop, hkey, hpending⟩
  obtain ⟨settlement, ⟨prop', hkey', hattempt'⟩, -⟩ :=
    hdevelopment.exists_holds (h.left.mem_pending hmem)
  obtain ⟨prop'', hkey'', hfresh⟩ := exists_prop?_of_fresh h.right.fresh_eq hkey
  obtain rfl := Option.some.inj (hkey'.symm.trans hkey'')
  rw [attempt_congr hfresh] at hattempt'
  rcases h.right.attempt_eq prop with hwait | heq
  · rw [hwait] at hattempt
    cases hattempt
  · rw [heq, hattempt] at hattempt'
    cases hattempt'

/-- Where nothing is pending any more, all is settled as at the goal. -/
theorem timeless_eq (h : Between start goal graph) (hdone : graph.pending = []) :
    graph.timeless = goal.timeless := by
  have hprops : graph.timeless.props = goal.timeless.props := by
    apply List.ext_getElem?
    intro index
    have hkept : goal.timeless.prop? ⟨index⟩ = graph.timeless.prop? ⟨index⟩ :=
      h.right.kept (by simp [hdone])
    exact hkept.symm
  calc graph.timeless
    _ = ⟨graph.types, graph.timeless.props, graph.byName⟩ := rfl
    _ = ⟨goal.types, goal.timeless.props, goal.byName⟩ := by
      rw [hprops, types_eq_of_fresh h.right.fresh_eq, byName_eq_of_fresh h.right.fresh_eq]

end Between

end Graph

end Metamodel
