import Mathlib.Data.List.Infix
import Metamodel.Proofs.Alteration
import Metamodel.Proofs.Timing

/-!
# Settlements in a larger graph

Say that a graph goes on where another one stops, and that each was resolved by itself. What a
property of the smaller graph has to settle to can be read off the types and properties that both
have, so it is the same in both (`Realizes.settles_mono`); and so is the round in which it is
settled, for that depends only on the rounds of what it waits for. Hence the smaller graph is the
larger one up to where it stops (`Finished.isPrefix`).
-/

namespace Metamodel

namespace Graph

variable {source : Source} {config : Config} {graph before after : Graph} {key : PropKey}
  {prop : Property} {owner : TypeKey} {settlement settlement' : Settlement}

/-! ### What there is to settle to -/

/-- What is in the view of a type is in the view that the type has in a larger graph. -/
theorem Realizes.mem_mergedProps_mono (h : before.Realizes source config)
    (hgrows : before.Grows after) (hmem : key ∈ before.mergedProps owner) :
    key ∈ after.mergedProps owner := by
  cases howner : before.type? owner with
  | none => simp [mergedProps, howner] at hmem
  | some type =>
    obtain ⟨lineage, -, hplaces⟩ := h.placed type (List.mem_of_getElem? howner)
    obtain rfl := h.key howner
    rwa [hplaces.mergedProps_mono hgrows]

/-- In regular graphs a property links to the same type, for it says itself whether it refers to a
registered one. -/
theorem Grows.link?_eq (h : before.Grows after) (hbefore : before.Regular) (hafter : after.Regular)
    (hkey : before.prop? key = some prop) : after.link? prop = before.link? prop := by
  have hfind : after.find? prop.type.innermost = before.find? prop.type.innermost := by
    cases hfound : before.find? prop.type.innermost with
    | some type => exact hbefore.find?_mono hafter.toIndexed h hfound
    | none =>
      obtain ⟨resolution, hkey'⟩ := h.exists_resolution hkey
      have hreference := hafter.reference hkey'
      rw [show prop.reference = _ from hbefore.reference hkey, hfound] at hreference
      simpa using hreference.symm
  rw [link?, link?, hbefore.keyOf?_eq, hafter.keyOf?_eq, hfind]

/-- A path leads along the same properties. -/
theorem Realizes.navigates_mono (h : before.Realizes source config) (hgrows : before.Grows after)
    (hbefore : before.Regular) (hafter : after.Regular) {segments : List String}
    {keys : List PropKey} (hnavigates : before.Navigates owner segments keys) :
    after.Navigates owner segments keys := by
  induction hnavigates with
  | last hmem hkey =>
    obtain ⟨resolution, hkey'⟩ := hgrows.exists_resolution hkey
    have hlast := Navigates.last (h.mem_mergedProps_mono hgrows hmem) hkey'
    exact hlast
  | step hmem hkey hlink _ ih =>
    obtain ⟨resolution, hkey'⟩ := hgrows.exists_resolution hkey
    have hlink' := (hgrows.link?_eq hbefore hafter hkey).trans hlink
    have hstep := Navigates.step (h.mem_mergedProps_mono hgrows hmem) hkey' hlink' ih
    exact hstep

/-- What a property has to settle to it has to settle to in a larger graph. -/
theorem Realizes.settles_mono (h : before.Realizes source config) (hgrows : before.Grows after)
    (hbefore : before.Regular) (hafter : after.Regular) (hkey : before.prop? key = some prop)
    (hsettles : before.Settles prop settlement) : after.Settles prop settlement where
  target := hsettles.target.trans (hgrows.link?_eq hbefore hafter hkey).symm
  dependencies := hsettles.dependencies.imp fun _ _ hfollows =>
    ⟨hfollows.1, h.navigates_mono hgrows hbefore hafter hfollows.2⟩
  entity hassociation := by
    obtain ⟨type, htype, hlink, hentity⟩ := hsettles.entity hassociation
    exact ⟨type, hgrows.types.subset htype,
      (hgrows.link?_eq hbefore hafter hkey).trans hlink, hentity⟩

/-- In a regular graph a path of an expression has one dependency at most. -/
theorem Follows.unique (h : graph.Regular) {path : String} {dependency dependency' : PropPath}
    (hfollows : graph.Follows owner path dependency)
    (hfollows' : graph.Follows owner path dependency') : dependency = dependency' := by
  obtain ⟨raw, segments⟩ := dependency
  obtain ⟨raw', segments'⟩ := dependency'
  obtain ⟨rfl, hnavigates⟩ := hfollows
  obtain ⟨hraw, hnavigates'⟩ := hfollows'
  rw [PropPath.mk.injEq]
  exact ⟨hraw.symm, hnavigates.unique h hnavigates'⟩

/-- So there is one thing at most that a property has to settle to. -/
theorem Settles.unique (h : graph.Regular) (hsettles : graph.Settles prop settlement)
    (hsettles' : graph.Settles prop settlement') : settlement = settlement' := by
  obtain ⟨target, dependencies⟩ := settlement
  obtain ⟨target', dependencies'⟩ := settlement'
  have hunique : Relator.RightUnique (graph.Follows prop.declaringType) :=
    fun _ _ _ hfollows hfollows' => hfollows.unique h hfollows'
  rw [Settlement.mk.injEq]
  exact ⟨hsettles.target.trans hsettles'.target.symm,
    List.right_unique_forall₂' hunique hsettles.dependencies hsettles'.dependencies⟩

/-! ### Resolution that has come to its end -/

/-- Everything is settled, and was as soon as it could be. -/
structure Finished (graph : Graph) : Prop where
  healthy : graph.Healthy
  pending_eq : graph.pending = []
  prompt : ∀ {key : PropKey} {prop : Property}, graph.prop? key = some prop →
    graph.Prompt key prop.resolution.dependencies

/-- The properties along a path are there, and those on the way are no expressions. -/
theorem Navigates.props {segments : List String} {keys : List PropKey}
    (h : graph.Navigates owner segments keys) :
    (∀ key ∈ keys, ∃ prop, graph.prop? key = some prop) ∧
      ∀ key ∈ keys.dropLast, ∃ prop, graph.prop? key = some prop ∧ prop.kind.paths = [] := by
  induction h with
  | last _ hkey => simpa using ⟨_, hkey⟩
  | @step owner target key prop segments keys _ hkey hlink hrest ih =>
    obtain ⟨hprops, hinner⟩ := ih
    refine ⟨List.forall_mem_cons.2 ⟨⟨prop, hkey⟩, hprops⟩, ?_⟩
    rw [List.dropLast_cons_of_ne_nil hrest.ne_nil.2]
    refine List.forall_mem_cons.2 ⟨⟨prop, hkey, ?_⟩, hinner⟩
    cases hkind : prop.kind <;> simp_all [link?, PropertyKind.paths]

/-- What has to be waited for along the dependencies of a property is an expression that the
property waits for, or it has no dependencies itself. -/
theorem Settles.exists_waited (hsettles : graph.Settles prop settlement)
    (hkey : graph.prop? key = some prop) {waited : PropKey}
    (hwaited : waited ∈ graph.waitedFor settlement.dependencies) :
    ∃ other, graph.prop? waited = some other ∧
      (graph.Awaits key waited ∨ other.kind.paths = []) := by
  obtain ⟨dependency, hdependency, hwaited⟩ := List.mem_flatMap.1 hwaited
  obtain ⟨path, hpath, -, hnavigates⟩ :=
    List.Forall₂.exists_of_mem hsettles.dependencies.flip hdependency
  rcases List.mem_append.1 hwaited with hinner | hlast
  · obtain ⟨other, hother, hpaths⟩ := hnavigates.props.2 waited hinner
    exact ⟨other, hother, .inr hpaths⟩
  · obtain ⟨hlast, hexpression⟩ := List.mem_filter.1 hlast
    obtain ⟨other, hother, hkind⟩ := (Option.any_eq_true _ _).1 hexpression
    exact ⟨other, hother, .inl ⟨prop, other, path, dependency.segments, hkey, hpath, hnavigates,
      Option.mem_toList.1 hlast, hother, hkind⟩⟩

/-- In a larger graph the same has to be waited for. -/
theorem Settles.waitedFor_mono (hsettles : before.Settles prop settlement)
    (hgrows : before.Grows after) :
    after.waitedFor settlement.dependencies = before.waitedFor settlement.dependencies := by
  refine List.flatMap_congr fun dependency hdependency => ?_
  obtain ⟨path, -, -, hnavigates⟩ :=
    List.Forall₂.exists_of_mem hsettles.dependencies.flip hdependency
  rw [waitsOn, waitsOn]
  congr 1
  refine List.filter_congr fun last hlast => ?_
  obtain ⟨other, hother⟩ :=
    hnavigates.props.1 last (List.mem_of_getLast? (Option.mem_toList.1 hlast))
  obtain ⟨resolution, hother'⟩ := hgrows.exists_resolution hother
  rw [isExpression, isExpression, hother, hother', Option.any_some, Option.any_some]

namespace Finished

/-- What has no dependencies was settled in the first round. -/
theorem roundOf_eq_one (h : graph.Finished) (hkey : graph.prop? key = some prop)
    (hpaths : prop.kind.paths = []) : graph.roundOf key = 1 := by
  obtain ⟨round, target, dependencies, hresolved, hsettles, -⟩ :=
    h.healthy.resolved h.pending_eq hkey
  obtain rfl : dependencies = [] := by
    have hnone := hsettles.dependencies
    rwa [hpaths, List.forall₂_nil_left_iff] at hnone
  have hmax := (h.prompt hkey).max?_eq
  rw [hresolved] at hmax
  exact (Option.some.inj hmax).symm

section Larger

variable (h : before.Finished) (hafter : after.Finished)
  (hrealizes : before.Realizes source config) (hgrows : before.Grows after)
include h hafter hrealizes hgrows

/-- In a larger graph a property is settled to the same. -/
theorem exists_round (hkey : before.prop? key = some prop) :
    ∃ round round' target dependencies,
      prop.resolution = .resolved round target dependencies ∧
      before.Settles prop ⟨target, dependencies⟩ ∧
      after.prop? key =
        some { prop with resolution := .resolved round' target dependencies } := by
  obtain ⟨round, target, dependencies, hresolved, hsettles, -⟩ :=
    h.healthy.resolved h.pending_eq hkey
  obtain ⟨resolution, hkey'⟩ := hgrows.exists_resolution hkey
  obtain ⟨round', target', dependencies', rfl, hsettles', -⟩ :=
    hafter.healthy.resolved hafter.pending_eq hkey'
  have hsame := hrealizes.settles_mono hgrows h.healthy.regular hafter.healthy.regular hkey hsettles
  have hsettled : after.Settles prop ⟨target', dependencies'⟩ :=
    ⟨hsettles'.target, hsettles'.dependencies, hsettles'.entity⟩
  obtain ⟨rfl, rfl⟩ := Settlement.mk.inj (hsame.unique hafter.healthy.regular hsettled)
  exact ⟨round, round', target, dependencies, hresolved, hsettles, hkey'⟩

/-- In a larger graph a property is settled in the same round. The induction is on what it waits
for. -/
theorem roundOf_eq (hkey : before.prop? key = some prop) :
    after.roundOf key = before.roundOf key := by
  have hgrounded : before.Grounded key := by
    obtain ⟨_, _, _, -, -, hgrounded⟩ := h.healthy.resolved h.pending_eq hkey
    exact hgrounded
  induction hgrounded generalizing prop with
  | intro key _ ih =>
    obtain ⟨round, round', target, dependencies, hresolved, hsettles, hkey'⟩ :=
      h.exists_round hafter hrealizes hgrows hkey
    have harrivals : ∀ waited ∈ before.waitedFor dependencies,
        after.arrival key waited = before.arrival key waited := by
      intro waited hwaited
      have hround : after.roundOf waited = before.roundOf waited := by
        obtain ⟨other, hother, hawaits | hpaths⟩ := hsettles.exists_waited hkey hwaited
        · exact ih waited hawaits hother
        · obtain ⟨resolution, hother'⟩ := hgrows.exists_resolution hother
          rw [h.roundOf_eq_one hother hpaths, hafter.roundOf_eq_one hother' hpaths]
      rw [arrival, arrival, hround]
    have hmax := (h.prompt hkey).max?_eq
    have hmax' := (hafter.prompt hkey').max?_eq
    rw [hresolved] at hmax
    simp only [Resolution.dependencies] at hmax hmax'
    rw [hsettles.waitedFor_mono hgrows, List.map_congr_left harrivals, hmax] at hmax'
    exact (Option.some.inj hmax').symm

/-- So a property is the same in a larger graph, round and all. -/
theorem prop?_eq (hkey : before.prop? key = some prop) : after.prop? key = some prop := by
  obtain ⟨round, round', target, dependencies, hresolved, -, hkey'⟩ :=
    h.exists_round hafter hrealizes hgrows hkey
  have hround := h.roundOf_eq hafter hrealizes hgrows hkey
  rw [roundOf, roundOf, hkey, hkey', Option.bind_some, Option.bind_some, hresolved] at hround
  obtain rfl : round' = round := hround
  rw [hkey', ← hresolved]

/-- A graph in which everything is settled is the beginning of a larger one. -/
theorem isPrefix : before.types <+: after.types ∧ before.props <+: after.props := by
  refine ⟨hgrows.types, List.prefix_iff_getElem?.2 fun index hlt => ?_⟩
  have hkey : before.prop? ⟨index⟩ = some before.props[index] := List.getElem?_eq_getElem hlt
  exact h.prop?_eq hafter hrealizes hgrows hkey

end Larger

end Finished

end Graph

/-- A compiled graph is finished. -/
theorem compile_finished {source : Source} {config : Config} {model : Model}
    (h : compile source config = .ok model) : model.graph.Finished := by
  obtain ⟨registry, registered⟩ := exists_registered_of_compile h
  obtain ⟨-, hhealthy, hpending⟩ := compile_settled registered h
  refine ⟨hhealthy, hpending, fun hkey => ?_⟩
  rcases compile_timely h with ⟨hnone, -⟩ | ⟨htimely, -⟩
  · rw [Graph.prop?, hnone] at hkey
    cases hkey
  · exact htimely.prompt hkey (by rw [hpending]; exact List.not_mem_nil)

end Metamodel
