import Metamodel.Proofs.Graph.Navigation

/-!
# Attempts in graphs that agree

An attempt looks at other properties only as far as they are settled, and waits where they are
not. So whatever it gives, unless it waits, it gives in every graph in which at least as much has
been settled and to the same, whatever the rounds (`Below.attempt_eq`).
-/

namespace Metamodel

/-- The resolution without the round in which the property was settled. -/
def Resolution.timeless : Resolution → Resolution
  | .resolved _ target dependencies => .resolved 0 target dependencies
  | resolution => resolution

section Resolution

variable (resolution : Resolution)

@[simp]
theorem Resolution.isPending_timeless : resolution.timeless.isPending = resolution.isPending := by
  cases resolution <;> rfl

@[simp]
theorem Resolution.isResolved_timeless :
    resolution.timeless.isResolved = resolution.isResolved := by
  cases resolution <;> rfl

@[simp]
theorem Resolution.target?_timeless : resolution.timeless.target? = resolution.target? := by
  cases resolution <;> rfl

end Resolution

/-- The property without the round in which it was settled. -/
def Property.timeless (prop : Property) : Property :=
  { prop with resolution := prop.resolution.timeless }

namespace Graph

/-- The graph without the rounds in which its properties were settled. -/
def timeless (graph : Graph) : Graph :=
  { graph with props := graph.props.map Property.timeless }

variable {graph before after first second third : Graph} {prop prop' : Property} {key : PropKey}

theorem prop?_timeless (graph : Graph) (key : PropKey) :
    graph.timeless.prop? key = (graph.prop? key).map Property.timeless := by
  simp [prop?, timeless]

/-- A property is pending exactly when its resolution says so. -/
theorem mem_pending :
    key ∈ graph.pending ↔ ∃ prop, graph.prop? key = some prop ∧ prop.resolution = .pending := by
  have hkeys : key ∈ graph.propKeys ↔ key.index < graph.props.length := by
    obtain ⟨index⟩ := key
    simp [propKeys]
  rw [pending, List.mem_filter, hkeys]
  constructor
  · rintro ⟨-, hpending⟩
    obtain ⟨prop, hprop, hpending⟩ := (Option.any_eq_true _ _).1 hpending
    exact ⟨prop, hprop, by cases h : prop.resolution <;> simp_all [Resolution.isPending]⟩
  · rintro ⟨prop, hprop, hpending⟩
    refine ⟨(List.getElem?_eq_some_iff.1 hprop).1, ?_⟩
    simp [hprop, hpending, Resolution.isPending]

theorem mem_pending_iff (hkey : graph.prop? key = some prop) :
    key ∈ graph.pending ↔ prop.resolution = .pending := by
  simp [mem_pending, hkey]

/-- The properties that are waited for on the way are those that are pending. -/
theorem awaitsOnTheWay_iff : graph.awaitsOnTheWay key = true ↔ key ∈ graph.pending := by
  rw [mem_pending, awaitsOnTheWay, Option.any_eq_true]
  refine exists_congr fun prop => and_congr_right fun _ => ?_
  cases prop.resolution <;> simp [Resolution.isPending]

section Timeless

variable (graph : Graph) (key : PropKey)

theorem awaitsOnTheWay_timeless :
    graph.awaitsOnTheWay key = (graph.timeless.prop? key).any (·.resolution.isPending) := by
  rw [awaitsOnTheWay, prop?_timeless]
  cases graph.prop? key <;> simp [Property.timeless]

theorem awaitsAtEnd_timeless :
    graph.awaitsAtEnd key = (graph.timeless.prop? key).any fun prop =>
      prop.kind.isExpression && !prop.resolution.isResolved := by
  rw [awaitsAtEnd, prop?_timeless]
  cases graph.prop? key <;> simp [Property.timeless]

theorem target?_timeless :
    graph.target? key = (graph.timeless.prop? key).bind (·.resolution.target?) := by
  rw [target?, prop?_timeless]
  cases graph.prop? key <;> simp [Property.timeless]

end Timeless

/-- What one graph has settled, failed or not, another has settled to the same, though perhaps in
another round. -/
structure Below (before after : Graph) : Prop where
  fresh_eq : before.fresh = after.fresh
  kept : ∀ {key : PropKey}, key ∉ before.pending →
    after.timeless.prop? key = before.timeless.prop? key

theorem dependencyAt_congr (h : before.fresh = after.fresh) :
    before.dependencyAt = after.dependencyAt := by
  funext path owner segment
  rw [dependencyAt, dependencyAt, findProp?_congr h, typeName_congr h]

theorem linkedType?_congr (h : before.fresh = after.fresh) :
    before.linkedType? = after.linkedType? := by
  funext prop
  rw [linkedType?, linkedType?, find?_congr h]

namespace Below

theorem refl (graph : Graph) : graph.Below graph :=
  ⟨rfl, fun _ => rfl⟩

theorem awaitsOnTheWay_eq (h : before.Below after) (hkey : key ∉ before.pending) :
    after.awaitsOnTheWay key = before.awaitsOnTheWay key := by
  rw [awaitsOnTheWay_timeless, h.kept hkey, ← awaitsOnTheWay_timeless]

/-- What is pending in the one is pending in the other. -/
theorem mem_pending (h : before.Below after) (hkey : key ∈ after.pending) :
    key ∈ before.pending := by
  by_contra hsettled
  rw [← awaitsOnTheWay_iff, h.awaitsOnTheWay_eq hsettled, awaitsOnTheWay_iff] at hkey
  exact hsettled hkey

theorem trans (h : first.Below second) (h' : second.Below third) : first.Below third where
  fresh_eq := h.fresh_eq.trans h'.fresh_eq
  kept hkey := (h'.kept fun hpending => hkey (h.mem_pending hpending)).trans (h.kept hkey)

/-- What is settled links to the same. -/
theorem target?_eq (h : before.Below after) (hkey : key ∉ before.pending) :
    after.target? key = before.target? key := by
  rw [target?_timeless, h.kept hkey, ← target?_timeless]

/-- The end of a dependency that need not wait need not wait later. -/
theorem awaitsAtEnd_eq_false (h : before.Below after) (hkey : before.awaitsAtEnd key = false) :
    after.awaitsAtEnd key = false := by
  by_cases hpending : key ∈ before.pending
  · -- a pending property that is not waited for is no expression
    obtain ⟨prop, hprop, hpending⟩ := Graph.mem_pending.1 hpending
    obtain ⟨prop', hprop', hfresh⟩ := exists_prop?_of_fresh h.fresh_eq hprop
    have hkind : prop'.kind = prop.kind := congrArg (·.kind) hfresh
    simp only [awaitsAtEnd, hprop, hpending, Resolution.isResolved, Option.any_some, Bool.not_false,
      Bool.and_true] at hkey
    simp [awaitsAtEnd, hprop', hkind, hkey]
  · rw [awaitsAtEnd_timeless, h.kept hpending, ← awaitsAtEnd_timeless, hkey]

/-- A dependency that is followed without waiting is followed alike. -/
theorem walkDependency_eq (h : before.Below after) (path : String) (owner : TypeKey)
    (segments : List String) :
    before.walkDependency path owner segments = .ok none ∨
      after.walkDependency path owner segments = before.walkDependency path owner segments := by
  induction segments generalizing owner with
  | nil => exact .inr rfl
  | cons segment rest ih =>
    rw [walkDependency, walkDependency, dependencyAt_congr h.fresh_eq]
    cases after.dependencyAt path owner segment with
    | error fault => exact .inr rfl
    | ok key =>
      dsimp only
      by_cases hrest : rest = []
      · simp only [if_pos hrest]
        cases hawaits : before.awaitsAtEnd key with
        | true => exact .inl rfl
        | false => exact .inr (by rw [h.awaitsAtEnd_eq_false hawaits])
      · simp only [if_neg hrest]
        cases hawaits : before.awaitsOnTheWay key with
        | true => exact .inl rfl
        | false =>
          have hsettled : key ∉ before.pending := by
            rw [← awaitsOnTheWay_iff, hawaits]
            exact Bool.false_ne_true
          rw [h.awaitsOnTheWay_eq hsettled, h.target?_eq hsettled, hawaits]
          simp only [Bool.false_eq_true, ↓reduceIte]
          cases before.target? key with
          | none => exact .inr rfl
          | some target =>
            rcases ih target with hwait | heq
            · exact .inl (by simp only [hwait]; rfl)
            · exact .inr (by simp only [heq])

/-- The dependencies of an expression that are followed without waiting are followed alike. -/
theorem followDependencies_eq (h : before.Below after) (owner : TypeKey) (paths : List String) :
    before.followDependencies owner paths = .ok none ∨
      after.followDependencies owner paths = before.followDependencies owner paths := by
  induction paths with
  | nil => exact .inr rfl
  | cons path rest ih =>
    rw [followDependencies, followDependencies]
    rcases h.walkDependency_eq path owner (Text.splitDots path) with hwait | heq
    · exact .inl (by rw [hwait])
    · rw [heq]
      cases before.walkDependency path owner (Text.splitDots path) with
      | error fault => exact .inr rfl
      | ok keys? =>
        cases keys? with
        | none => exact .inl rfl
        | some keys =>
          rcases ih with hwait | heq
          · exact .inl (by simp only [hwait]; rfl)
          · exact .inr (by simp only [heq])

/-- An attempt that does not wait gives the same later. -/
theorem attempt_eq (h : before.Below after) (prop : Property) :
    before.attempt prop = .ok none ∨ after.attempt prop = before.attempt prop := by
  rw [attempt, attempt, settleScalar, settleScalar, settleAssociation, settleAssociation,
    linkedType?_congr h.fresh_eq]
  cases prop.kind with
  | scalar => exact .inr rfl
  | association => exact .inr rfl
  | sql text => exact .inr rfl
  | expression paths =>
    rcases h.followDependencies_eq prop.declaringType paths with hwait | heq
    · exact .inl (by simp only [hwait]; rfl)
    · exact .inr (by simp only [heq])

end Below

/-- An attempt does not depend on how far resolution of the property itself has come. -/
theorem attempt_congr (hfresh : prop.fresh = prop'.fresh) :
    graph.attempt prop = graph.attempt prop' := by
  show graph.attempt prop.fresh = graph.attempt prop'.fresh
  rw [hfresh]

/-- An attempt at the property at a key gives something to settle to. -/
def Yields (graph : Graph) (key : PropKey) (settlement : Settlement) : Prop :=
  ∃ prop, graph.prop? key = some prop ∧ graph.attempt prop = .ok (some settlement)

/-- An attempt that gives something to settle to gives the same later. -/
theorem Below.yields (h : before.Below after) {settlement : Settlement}
    (hyields : before.Yields key settlement) : after.Yields key settlement := by
  obtain ⟨prop, hprop, hattempt⟩ := hyields
  obtain ⟨prop', hprop', hfresh⟩ := exists_prop?_of_fresh h.fresh_eq hprop
  refine ⟨prop', hprop', ?_⟩
  rcases h.attempt_eq prop with hwait | heq
  · rw [hwait] at hattempt
    cases hattempt
  · rw [attempt_congr hfresh, heq, hattempt]

theorem Yields.unique {settlement other : Settlement} (h : graph.Yields key settlement)
    (h' : graph.Yields key other) : settlement = other := by
  obtain ⟨prop, hprop, hattempt⟩ := h
  obtain ⟨prop', hprop', hattempt'⟩ := h'
  obtain rfl := Option.some.inj (hprop.symm.trans hprop')
  exact Option.some.inj (Except.ok.inj (hattempt.symm.trans hattempt'))

end Graph

end Metamodel
