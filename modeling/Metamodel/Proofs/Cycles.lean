import Metamodel.Proofs.Ascent
import Metamodel.Proofs.Declaration.Set
import Metamodel.Proofs.Independence

/-!
# Cyclic ancestry

The ancestors that declarations ask for may lead back to where they started. Registration comes to
an end all the same, for a call never waits for a name that waits already
(`Registry.exists_calls_resolve`), and it reports a cycle exactly where there is one: if the climb
from a name comes back to a name that it has left, that name is blamed and the cycle is what was
left since, without the way that led there. `Reachable.resolve_cyclic_iff` has both.
-/

namespace Metamodel

/-- What stands before the only occurrence of an item is dropped on the way to it. -/
theorem List.dropWhile_ne_of_nodup {α : Type} [DecidableEq α] {tail loop : List α} {first : α}
    (h : (tail ++ first :: loop).Nodup) :
    (tail ++ first :: loop).dropWhile (· ≠ first) = first :: loop := by
  have htail : ∀ other ∈ tail, decide (other ≠ first) = true := by
    intro other hother
    refine decide_eq_true fun heq => ?_
    exact List.disjoint_of_nodup_append h (heq ▸ hother) List.mem_cons_self
  rw [List.dropWhile_append_of_pos htail, List.dropWhile_cons_of_neg (by simp)]

namespace Registry

variable {source : Source} {config : Config} {registry : Registry} {name : String}

/-! ### Termination -/

/-- A call for a name runs to its end with an outcome, one constructor for each way through the
call. The number is how deep calls for ancestors are nested in it; no rule bounds it. -/
inductive Calls (source : Source) (config : Config) :
    Nat → String → Registry → Outcome TypeKey → Prop where
  | known {name : String} {registry : Registry} {key : TypeKey} :
    registry.graph.keyOf? name = some key →
    Calls source config 0 name registry ⟨.ok key, registry⟩
  | cyclic {name : String} {registry : Registry} :
    registry.graph.keyOf? name = none →
    name ∈ registry.inProgress →
    Calls source config 0 name registry
      ⟨.error (.ofType name
        (.cyclicAncestry (registry.inProgress.dropWhile (· ≠ name) ++ [name]))), registry⟩
  | undeclared {name : String} {registry : Registry} :
    registry.graph.keyOf? name = none →
    name ∉ registry.inProgress →
    source.declaration? name = none →
    Calls source config 0 name registry ⟨.error (.ofType name .undeclared), registry⟩
  | illegal {name : String} {registry : Registry} {declaration : Declaration}
      {violation : Violation} :
    registry.graph.keyOf? name = none →
    name ∉ registry.inProgress →
    source.declaration? name = some declaration →
    Header.ofDeclaration source declaration = .error violation →
    Calls source config 0 name registry ⟨.error violation, registry⟩
  | root {name : String} {registry : Registry} {declaration : Declaration} {header : Header} :
    registry.graph.keyOf? name = none →
    name ∉ registry.inProgress →
    source.declaration? name = some declaration →
    Header.ofDeclaration source declaration = .ok header →
    header.ancestor = none →
    Calls source config 0 name registry
      (registry.construct source config declaration header none)
  | fails {depth : Nat} {name ancestor : String} {registry after : Registry}
      {declaration : Declaration} {header : Header} {violation : Violation} :
    registry.graph.keyOf? name = none →
    name ∉ registry.inProgress →
    source.declaration? name = some declaration →
    Header.ofDeclaration source declaration = .ok header →
    header.ancestor = some ancestor →
    Calls source config depth ancestor (registry.enter name) ⟨.error violation, after⟩ →
    Calls source config (depth + 1) name registry ⟨.error violation, after.leave⟩
  | under {depth : Nat} {name ancestor : String} {registry after : Registry}
      {declaration : Declaration} {header : Header} {key : TypeKey} :
    registry.graph.keyOf? name = none →
    name ∉ registry.inProgress →
    source.declaration? name = some declaration →
    Header.ofDeclaration source declaration = .ok header →
    header.ancestor = some ancestor →
    Calls source config depth ancestor (registry.enter name) ⟨.ok key, after⟩ →
    Calls source config (depth + 1) name registry
      (after.leave.construct source config declaration header (some key))

/-- Whatever a call runs to is what `Registry.resolve` gives. -/
theorem Calls.eq_resolve {depth : Nat} {outcome : Outcome TypeKey}
    (h : Calls source config depth name registry outcome) :
    outcome = registry.resolve source config name := by
  induction h with
  | known hkey => rw [Registry.resolve, hkey]
  | cyclic hnew hcyclic =>
    rw [Registry.resolve]
    simp only [hnew, dif_pos hcyclic]
  | undeclared hnew hidle hnone =>
    rw [Registry.resolve]
    simp only [hnew, dif_neg hidle]
    split
    · rfl
    · next hdeclared => cases hnone.symm.trans hdeclared
  | illegal hnew hidle hdeclared hheader =>
    rw [Registry.resolve]
    simp only [hnew, dif_neg hidle]
    split
    · next hnone => cases hdeclared.symm.trans hnone
    · next found hfound =>
      obtain rfl := Option.some.inj (hdeclared.symm.trans hfound)
      rw [hheader]
  | root hnew hidle hdeclared hheader hroot =>
    rw [resolve_eq_of_header hnew hidle hdeclared hheader, hroot]
  | fails hnew hidle hdeclared hheader hancestor _ ih
  | under hnew hidle hdeclared hheader hancestor _ ih =>
    rw [resolve_eq_of_header hnew hidle hdeclared hheader, hancestor]
    simp only [← ih]

/-- A call comes to its end. Each nested call waits for a declared name that did not wait before, so
there are no more of them than such names. -/
theorem exists_calls_resolve (source : Source) (config : Config) (name : String)
    (registry : Registry) :
    ∃ depth ≤ (registry.idle source).length,
      Calls source config depth name registry (registry.resolve source config name) := by
  fun_induction Registry.resolve source config name registry with
  | case1 name registry key hkey => exact ⟨0, Nat.zero_le _, .known hkey⟩
  | case2 name registry hnew hcyclic cycle => exact ⟨0, Nat.zero_le _, .cyclic hnew hcyclic⟩
  | case3 name registry hnew hidle hundeclared =>
    exact ⟨0, Nat.zero_le _, .undeclared hnew hidle hundeclared⟩
  | case4 name registry hnew hidle declaration hdeclared violation hheader =>
    exact ⟨0, Nat.zero_le _, .illegal hnew hidle hdeclared hheader⟩
  | case5 name registry hnew hidle declaration hdeclared header hheader hroot =>
    exact ⟨0, Nat.zero_le _, .root hnew hidle hdeclared hheader hroot⟩
  | case6 name registry hnew hidle declaration hdeclared header hheader ancestor hancestor outcome
      violation hresult ih =>
    obtain ⟨depth, hdepth, hcalls⟩ := ih
    have hcalls : Calls source config depth ancestor (registry.enter name)
        ⟨.error violation, outcome.registry⟩ := hresult ▸ hcalls
    exact ⟨depth + 1, hdepth.trans_lt (idle_enter_lt hdeclared hidle),
      .fails hnew hidle hdeclared hheader hancestor hcalls⟩
  | case7 name registry hnew hidle declaration hdeclared header hheader ancestor hancestor outcome
      key hresult ih =>
    obtain ⟨depth, hdepth, hcalls⟩ := ih
    have hcalls : Calls source config depth ancestor (registry.enter name)
        ⟨.ok key, outcome.registry⟩ := hresult ▸ hcalls
    exact ⟨depth + 1, hdepth.trans_lt (idle_enter_lt hdeclared hidle),
      .under hnew hidle hdeclared hheader hancestor hcalls⟩

/-- Idle names are declared. -/
theorem length_idle_le (source : Source) (registry : Registry) :
    (registry.idle source).length ≤ source.declarations.size := by
  have hle := List.length_filter_le (· ∉ registry.inProgress) source.declarations.names
  rwa [DeclarationSet.length_names] at hle

/-! ### Cycles -/

/-- A climb from new names to one that waits or was left is reported as a cycle. -/
theorem resolve_of_climb {left : List String} {last : String}
    (hclimb : source.Climb name left last) (hlast : last ∈ registry.inProgress ++ left)
    (hnodup : (registry.inProgress ++ left).Nodup)
    (hnew : ∀ other ∈ left ++ [last], registry.graph.keyOf? other = none) :
    (registry.resolve source config name).result =
      .error (.ofType last (.cyclicAncestry
        ((registry.inProgress ++ left).dropWhile (· ≠ last) ++ [last]))) := by
  induction hclimb generalizing registry with
  | @stay last =>
    rw [List.append_nil] at hlast ⊢
    rw [Registry.resolve, hnew last (by simp)]
    simp only [dif_pos hlast]
  | @up name ancestor last left hup _ ih =>
    obtain ⟨declaration, header, hdeclared, hheader, hancestor⟩ := Source.ascends_iff.1 hup
    have hidle : name ∉ registry.inProgress :=
      fun hbusy => List.disjoint_of_nodup_append hnodup hbusy List.mem_cons_self
    -- with the name among those that wait, the list of all names is the same
    have hsame : registry.inProgress ++ name :: left =
        (registry.enter name).inProgress ++ left := by simp [enter]
    rw [hsame] at hlast hnodup ⊢
    have hrest := ih hlast hnodup fun other hother => hnew other (List.mem_cons_of_mem _ hother)
    rw [resolve_eq_of_header (hnew name (by simp)) hidle hdeclared hheader, hancestor]
    simp only [hrest]

end Registry

/-- The violation that reports a cycle from its first name on. -/
def Violation.ofCycle (first : String) (loop : List String) : Violation :=
  .ofType first (.cyclicAncestry (first :: loop ++ [first]))

variable {source : Source} {config : Config} {registry : Registry}

/-- Registration comes to an end on every source, cyclic or not: a call runs to exactly one outcome,
with no more calls nested in it than there are declarations. It reports a cycle exactly if a climb
through distinct names comes back to one of them. That name is blamed and the cycle is all that the
climb has left since, without the names before. -/
theorem Reachable.resolve_cyclic_iff (h : Reachable source config registry) (name : String) :
    (∃ depth ≤ source.declarations.size, Registry.Calls source config depth name registry
      (registry.resolve source config name)) ∧
    (∀ depth outcome, Registry.Calls source config depth name registry outcome →
      outcome = registry.resolve source config name) ∧
    ∀ violation, (registry.resolve source config name).result = .error violation ∧
        (∃ cycle, violation.fault = .cyclicAncestry cycle) ↔
      ∃ tail first loop, source.Climb name (tail ++ first :: loop) first ∧
        (tail ++ first :: loop).Nodup ∧ violation = .ofCycle first loop ∧
        violation.diagnostic =
          { cls := .structural
            subject := { typeName := first }
            message := "its ancestry is cyclic: " ++
              " -> ".intercalate (first :: loop ++ [first]) } := by
  have hgraph := h.sound.realizes
  have hidle := h.sound.inProgress_eq
  refine ⟨?_, fun _ _ hcalls => hcalls.eq_resolve, fun violation => ⟨?_, ?_⟩⟩
  · obtain ⟨depth, hdepth, hcalls⟩ :=
      Registry.exists_calls_resolve source config name registry
    exact ⟨depth, hdepth.trans (Registry.length_idle_le source registry), hcalls⟩
  · rintro ⟨hresult, cycle, hcycle⟩
    obtain ⟨waiting, failing, hfails⟩ := Registry.resolve_failsAt hgraph hresult
    have hbreaks := hfails.breaks
    rw [hidle, List.nil_append] at hbreaks
    obtain ⟨hwaiting, hviolation⟩ := hbreaks.of_cycle? (by simp [hcycle, Fault.cycle?])
    obtain ⟨tail, loop, rfl⟩ := List.append_of_mem hwaiting
    rw [List.dropWhile_ne_of_nodup hfails.nodup] at hviolation
    subst hviolation
    exact ⟨tail, failing, loop, hfails.climb, hfails.nodup, rfl, rfl⟩
  · rintro ⟨tail, first, loop, hclimb, hnodup, rfl, -⟩
    have hfirst : first ∈ tail ++ first :: loop := by simp
    -- no name on the way has a lineage, so none of them is registered
    have hnew : ∀ other ∈ (tail ++ first :: loop) ++ [first],
        registry.graph.keyOf? other = none := by
      intro other hother
      have hleft : other ∈ tail ++ first :: loop := by
        rcases List.mem_append.1 hother with hother | hother
        · exact hother
        · exact List.mem_singleton.1 hother ▸ hfirst
      exact hgraph.keyOf?_eq_none (hclimb.no_lineage hfirst hleft)
    have hbusy : registry.inProgress ++ (tail ++ first :: loop) = tail ++ first :: loop := by
      rw [hidle, List.nil_append]
    have hresult : (registry.resolve source config name).result = _ :=
      Registry.resolve_of_climb hclimb (by rwa [hbusy]) (by rwa [hbusy]) hnew
    rw [hbusy, List.dropWhile_ne_of_nodup hnodup] at hresult
    exact ⟨hresult, _, rfl⟩

/-- Two types that claim to be below each other, and a third below one of them. -/
def loops : Source where
  declarations := {
    toList := [
      { simpleName := "Leaf", tags := [.entity none], interfaces := ["Left"] },
      { simpleName := "Left", tags := [.mappedSuperclass none false], interfaces := ["Right"] },
      { simpleName := "Right", tags := [.mappedSuperclass none false], interfaces := ["Left"] },
      { simpleName := "Place", tags := [.embeddable] }]
    names_nodup := by decide }

theorem Reachable.resolve_cyclic_iff_loops :
    ∃ registry, Reachable loops {} registry ∧
      registry.graph.types.map (·.qualifiedName) = ["Place"] ∧
      (∃ depth ≤ loops.declarations.size, Registry.Calls loops {} depth "Leaf" registry
        (registry.resolve loops {} "Leaf")) ∧
      let violation := Violation.ofCycle "Left" ["Right"]
      violation.diagnostic.message = "its ancestry is cyclic: Left -> Right -> Left" ∧
        (registry.resolve loops {} "Leaf").result = .error violation ∧
        ∃ tail first loop, loops.Climb "Leaf" (tail ++ first :: loop) first ∧
          (tail ++ first :: loop).Nodup ∧ violation = .ofCycle first loop := by
  have hreachable : LeadsTo loops {} {} _ := .step (.resolve "Place") <|
    .step (.resolve "Leaf") .refl
  have hcyclic := Reachable.resolve_cyclic_iff hreachable "Leaf"
  refine ⟨_, hreachable, by decide +kernel, hcyclic.1, by decide +kernel, by decide +kernel, ?_⟩
  obtain ⟨tail, first, loop, hclimb, hnodup, hviolation, -⟩ :=
    (hcyclic.2.2 (.ofCycle "Left" ["Right"])).1 ⟨by decide +kernel, _, rfl⟩
  exact ⟨tail, first, loop, hclimb, hnodup, hviolation⟩

end Metamodel
