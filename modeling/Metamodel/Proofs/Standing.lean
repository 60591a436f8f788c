import Mathlib.Data.List.Find
import Metamodel.Proofs.Alteration

/-!
# What is settled stands

A step settles a property to what `Graph.attempt` gives in the graph of that time, while other
properties are still pending and types are still to come. None of this can change the answer: an
attempt that gave a settlement gives it again however the graph goes on (`Realizes.attempt_mono`).
So in a reachable registry every property is settled to what an attempt at it would give now
(`Reachable.stands`), and whatever holds of attempts holds of what is settled.
-/

namespace Metamodel

open Relation (ReflTransGen)

namespace Graph

variable {source : Source} {config : Config} {graph before after : Graph} {prop : Property}
  {key : PropKey} {owner : TypeKey}

/-- What a property is settled to, if it is, is what an attempt at it would give. -/
def Stands (graph : Graph) (prop : Property) : Prop :=
  ∀ round target dependencies, prop.resolution = .resolved round target dependencies →
    graph.attempt prop = .ok (some ⟨target, dependencies⟩)

/-- What is not settled stands. -/
theorem stands_of_isResolved (h : prop.resolution.isResolved = false) : graph.Stands prop := by
  intro round target dependencies hresolved
  rw [hresolved] at h
  cases h

/-- How far the resolution of a property has come says nothing about an attempt at it. -/
theorem attempt_setResolution (graph : Graph) (prop : Property) (resolution : Resolution) :
    graph.attempt { prop with resolution } = graph.attempt prop := rfl

/-! ### Attempts while a graph goes on -/

/-- A type in whose view something is found is registered. -/
theorem Realizes.exists_of_findProp? (h : graph.Realizes source config) {name : String}
    (hfound : graph.findProp? owner name = some key) :
    ∃ type ∈ graph.types, type.key = owner := by
  cases hkey : graph.type? owner with
  | none => simp [findProp?, mergedProps, hkey] at hfound
  | some type => exact ⟨type, List.mem_of_getElem? hkey, h.key hkey⟩

/-- The view of a type has the same property under a name. -/
theorem Realizes.findProp?_eq (h : before.Realizes source config)
    (hcontinues : before.Continues after) {type : TypeNode} (htype : type ∈ before.types)
    (name : String) : after.findProp? type.key name = before.findProp? type.key name := by
  have hkeeps := h.keeps hcontinues
  obtain ⟨lineage, -, hplaces⟩ := h.placed type htype
  rw [findProp?, findProp?, hkeeps.mergedProps_eq type htype]
  refine List.find?_congr fun key hkey => ?_
  obtain ⟨prop, hprop⟩ := hplaces.exists_of_view (.inl hkey)
  obtain ⟨resolution, hlater⟩ := hkeeps.prop?_eq key prop hprop
  rw [hprop, hlater, Option.any_some, Option.any_some]

theorem Realizes.findProp?_mono (h : before.Realizes source config)
    (hcontinues : before.Continues after) {name : String}
    (hfound : before.findProp? owner name = some key) : after.findProp? owner name = some key := by
  obtain ⟨type, htype, rfl⟩ := h.exists_of_findProp? hfound
  rw [h.findProp?_eq hcontinues htype, hfound]

/-- What was settled at the end of a path is settled still. -/
theorem Realizes.awaitsAtEnd_mono (h : before.Realizes source config)
    (hcontinues : before.Continues after) (hkey : before.prop? key = some prop)
    (hready : before.awaitsAtEnd key = false) : after.awaitsAtEnd key = false := by
  obtain ⟨resolution, hlater⟩ := (h.keeps hcontinues).prop?_eq key prop hkey
  cases hkind : prop.kind.isExpression with
  | false => simp [awaitsAtEnd, hlater, hkind]
  | true =>
    have hresolved : prop.resolution.isResolved = true := by
      simpa [awaitsAtEnd, hkey, hkind] using hready
    have hne : prop.resolution ≠ .pending := by
      intro hpending
      rw [hpending] at hresolved
      cases hresolved
    rw [awaitsAtEnd, hcontinues.kept hkey hne]
    simp [hresolved]

/-- So was what was not pending on the way. -/
theorem Continues.awaitsOnTheWay_mono (h : before.Continues after)
    (hkey : before.prop? key = some prop) (hready : before.awaitsOnTheWay key = false) :
    after.awaitsOnTheWay key = false := by
  have hne : prop.resolution ≠ .pending := by
    intro hpending
    simp [awaitsOnTheWay, hkey, hpending, Resolution.isPending] at hready
  rw [awaitsOnTheWay, h.kept hkey hne, ← hready, awaitsOnTheWay, hkey]

/-- A link stays. -/
theorem Continues.target?_mono (h : before.Continues after) {target : TypeKey}
    (htarget : before.target? key = some target) : after.target? key = some target := by
  obtain ⟨prop, hkey, hlink⟩ := Option.bind_eq_some_iff.1 htarget
  have hne : prop.resolution ≠ .pending := by
    intro hpending
    rw [hpending] at hlink
    cases hlink
  rw [target?, h.kept hkey hne, Option.bind_some, hlink]

/-- A dependency that was followed leads along the same properties. -/
theorem Realizes.walkDependency_mono (h : before.Realizes source config)
    (hcontinues : before.Continues after) {path : String} {segments : List String}
    {keys : List PropKey} (hwalk : before.walkDependency path owner segments = .ok (some keys)) :
    after.walkDependency path owner segments = .ok (some keys) := by
  induction segments generalizing owner keys with
  | nil => exact hwalk
  | cons segment rest ih =>
    rw [walkDependency] at hwalk ⊢
    cases hfound : before.findProp? owner segment with
    | none => simp [dependencyAt, hfound] at hwalk
    | some key =>
      obtain ⟨-, prop, hkey, -⟩ := findProp?_eq_some hfound
      simp only [dependencyAt, hfound] at hwalk
      simp only [dependencyAt, h.findProp?_mono hcontinues hfound]
      by_cases hrest : rest = []
      · simp only [hrest, ↓reduceIte] at hwalk ⊢
        cases hready : before.awaitsAtEnd key with
        | true => simp [hready] at hwalk
        | false =>
          rw [h.awaitsAtEnd_mono hcontinues hkey hready]
          rwa [hready] at hwalk
      · simp only [hrest, ↓reduceIte] at hwalk ⊢
        cases hready : before.awaitsOnTheWay key with
        | true => simp [hready] at hwalk
        | false =>
          rw [hcontinues.awaitsOnTheWay_mono hkey hready]
          rw [hready] at hwalk
          cases htarget : before.target? key with
          | none => simp [htarget] at hwalk
          | some target =>
            simp only [htarget, Bool.false_eq_true, ↓reduceIte, Except.map_eq_ok_iff,
              Option.map_eq_some_iff] at hwalk
            obtain ⟨_, hwalk, keys, rfl, rfl⟩ := hwalk
            simp only [hcontinues.target?_mono htarget, ih hwalk, Bool.false_eq_true, ↓reduceIte]
            rfl

theorem Realizes.followDependencies_mono (h : before.Realizes source config)
    (hcontinues : before.Continues after) {paths : List String} {dependencies : List PropPath}
    (hfollow : before.followDependencies owner paths = .ok (some dependencies)) :
    after.followDependencies owner paths = .ok (some dependencies) := by
  induction paths generalizing dependencies with
  | nil => exact hfollow
  | cons path rest ih =>
    rw [followDependencies] at hfollow ⊢
    split at hfollow
    · cases hfollow
    · cases hfollow
    · next segments hwalk =>
      simp only [Except.map_eq_ok_iff, Option.map_eq_some_iff] at hfollow
      obtain ⟨_, hrest, dependencies, rfl, rfl⟩ := hfollow
      rw [h.walkDependency_mono hcontinues hwalk]
      simp only [ih hrest]
      rfl

/-- What a property was found to refer to it refers to still. -/
theorem Indexed.linkedType?_mono (h : before.Indexed) (hafter : after.Indexed)
    (hgrows : before.Grows after) {linked : Option TypeNode}
    (hlinked : before.linkedType? prop = .ok linked) : after.linkedType? prop = .ok linked := by
  unfold linkedType? at hlinked ⊢
  split at hlinked
  · exact hlinked
  · split at hlinked
    · next hfound =>
      rw [h.find?_mono hafter hgrows hfound]
      exact hlinked
    · cases hlinked

/-- An attempt that gave a settlement gives it again. -/
theorem Realizes.attempt_mono (h : before.Realizes source config) (hafter : after.Indexed)
    (hcontinues : before.Continues after) {settlement : Settlement}
    (hattempt : before.attempt prop = .ok (some settlement)) :
    after.attempt prop = .ok (some settlement) := by
  rw [attempt] at hattempt ⊢
  cases hkind : prop.kind with
  | sql text =>
    rw [hkind] at hattempt
    exact hattempt
  | scalar =>
    simp only [hkind, settleScalar, Except.map_eq_ok_iff, Except.bind_eq_ok_iff] at hattempt ⊢
    obtain ⟨_, ⟨linked, hlinked, hsettle⟩, hsome⟩ := hattempt
    exact ⟨_, ⟨linked, h.linkedType?_mono hafter hcontinues.toGrows hlinked, hsettle⟩, hsome⟩
  | association =>
    simp only [hkind, settleAssociation, Except.map_eq_ok_iff, Except.bind_eq_ok_iff] at hattempt ⊢
    obtain ⟨_, ⟨linked, hlinked, hsettle⟩, hsome⟩ := hattempt
    exact ⟨_, ⟨linked, h.linkedType?_mono hafter hcontinues.toGrows hlinked, hsettle⟩, hsome⟩
  | expression paths =>
    simp only [hkind, Except.map_eq_ok_iff, Option.map_eq_some_iff] at hattempt ⊢
    obtain ⟨_, hfollow, dependencies, rfl, rfl⟩ := hattempt
    exact ⟨_, h.followDependencies_mono hcontinues hfollow, dependencies, rfl, rfl⟩

/-- What stands goes on to stand. -/
theorem Realizes.stands_mono (h : before.Realizes source config) (hafter : after.Indexed)
    (hcontinues : before.Continues after) (hstands : before.Stands prop) : after.Stands prop := by
  intro round target dependencies hresolved
  exact h.attempt_mono hafter hcontinues (hstands round target dependencies hresolved)

end Graph

namespace Registry

variable {source : Source} {config : Config} {registry before after : Registry} {key : PropKey}
  {round : Nat} {outcome : Outcome Bool}

/-- Where a pending property gets a resolution with which it stands, all properties do. -/
theorem stands_setResolution (hrealizes : registry.graph.Realizes source config)
    (h : ∀ prop ∈ registry.graph.props, registry.graph.Stands prop)
    (hpending : key ∈ registry.graph.pending) {resolution : Resolution}
    (hown : ∀ prop, registry.graph.prop? key = some prop →
      registry.graph.Stands { prop with resolution }) :
    ∀ prop ∈ (registry.setResolution key resolution).graph.props,
      (registry.setResolution key resolution).graph.Stands prop := by
  have hcontinues : registry.graph.Continues (registry.graph.setResolution key resolution) :=
    .of_advances (.setResolution hpending resolution)
  intro prop hprop
  obtain ⟨other, hother⟩ := Graph.exists_prop?_eq_some hprop
  refine hrealizes.stands_mono (hrealizes.toIndexed.congr (by simp [setResolution])) hcontinues ?_
  rw [setResolution, Graph.prop?_setResolution] at hother
  split at hother
  · next hsame =>
    subst hsame
    obtain ⟨found, hfound, rfl⟩ := Option.map_eq_some_iff.1 hother
    exact hown found hfound
  · exact h prop (List.mem_of_getElem? hother)

/-- A step settles a property to what stands, and leaves the others as they were. -/
theorem Step.stands (hstep : Step round key registry outcome)
    (hrealizes : registry.graph.Realizes source config)
    (h : ∀ prop ∈ registry.graph.props, registry.graph.Stands prop) :
    ∀ prop ∈ outcome.registry.graph.props, outcome.registry.graph.Stands prop := by
  cases hstep with
  | idle _ => exact h
  | waits _ _ _ => exact h
  | settles hkey hpending hattempt =>
    refine stands_setResolution hrealizes h (Graph.mem_pending.2 ⟨_, hkey, hpending⟩) ?_
    intro found hfound
    obtain rfl := Option.some.inj (hkey.symm.trans hfound)
    rintro _ _ _ ⟨⟩
    rw [Graph.attempt_setResolution, hattempt]
  | fails hkey hpending _ =>
    exact stands_setResolution hrealizes h (Graph.mem_pending.2 ⟨_, hkey, hpending⟩)
      fun _ _ => Graph.stands_of_isResolved rfl

/-- Every move leaves what is settled standing. -/
theorem Moves.stands (hmove : Moves source config before after)
    (hsound : before.Sound source config)
    (h : ∀ prop ∈ before.graph.props, before.graph.Stands prop) :
    ∀ prop ∈ after.graph.props, after.graph.Stands prop := by
  cases hmove with
  | registers name =>
    obtain ⟨hafter, ⟨types, props, hadds⟩, -⟩ := resolve_registers hsound.realizes name
    intro prop hprop
    rw [hadds.props_eq, List.mem_append] at hprop
    rcases hprop with hold | hnew
    · exact hsound.realizes.stands_mono hafter.toIndexed hadds.continues (h prop hold)
    · exact Graph.stands_of_isResolved (by rw [hadds.pending prop hnew]; rfl)
  | steps round key => exact (resolveProperty_step round key before).stands hsound.realizes h
  | reports round pending => exact h
  | givesUp hkey =>
    exact stands_setResolution hsound.realizes h hkey fun _ _ => Graph.stands_of_isResolved rfl

/-- So do moves one after the other. -/
theorem stands_of_moves (hmoves : ReflTransGen (Moves source config) before after)
    (hsound : before.Sound source config)
    (h : ∀ prop ∈ before.graph.props, before.graph.Stands prop) :
    after.Sound source config ∧ ∀ prop ∈ after.graph.props, after.graph.Stands prop := by
  induction hmoves with
  | refl => exact ⟨hsound, h⟩
  | tail _ hmove ih =>
    obtain ⟨hsound, h⟩ := ih
    exact ⟨hmove.sound hsound, hmove.stands hsound h⟩

end Registry

/-- In a reachable registry every property that is settled is settled to what an attempt at it would
give now. -/
theorem Reachable.stands {source : Source} {config : Config} {registry : Registry}
    (h : Reachable source config registry) :
    ∀ prop ∈ registry.graph.props, registry.graph.Stands prop :=
  (Registry.stands_of_moves h.moves .empty (by simp)).2

end Metamodel
