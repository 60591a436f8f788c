import Metamodel.Proofs.Graph.Whole
import Metamodel.Proofs.Linking
import Metamodel.Proofs.Alteration

/-!
# The closure under references

`Registry.linkTargets` goes over the properties of a graph and registers what they refer to, while
the properties of what it registers come up behind. It comes to an end, because there are never
more properties than declared members (`Registry.exists_links`), and what it has registered then is
what references lead to from the types that were there, and nothing else
(`Reachable.linkTargets_closure`). Read `Source.RefersTo` and `Registry.LinkClosure` first.
-/

namespace Metamodel

open Relation (ReflTransGen)

namespace Source

variable {source : Source} {name other : String}

/-- A declared name refers to another: a member of its declaration that becomes a property has the
other as its innermost type, or the other is its single immutable interface. -/
def RefersTo (source : Source) (name other : String) : Prop :=
  (source.declaration? other).isSome ∧
    ∃ declaration, source.declaration? name = some declaration ∧
      ((∃ member ∈ declaration.members, member.isProperty = true ∧
          member.type.innermost = other) ∨
        declaration.interfaces.filter source.isImmutable = [other])

/-- The way up to a declared name is one of references. -/
theorem refersTo_of_ascends (h : ReflTransGen source.Ascends name other)
    (hother : (source.declaration? other).isSome) : ReflTransGen source.RefersTo name other := by
  induction h using ReflTransGen.head_induction_on with
  | refl => exact .refl
  | @head name next hup hrest ih =>
    obtain ⟨declaration, hdeclared, -, hsingle⟩ := hup
    have hnext : (source.declaration? next).isSome := by
      rcases ReflTransGen.cases_head hrest with rfl | ⟨_, ⟨_, hdeclared', -⟩, -⟩
      · exact hother
      · rw [hdeclared']
        rfl
    exact .head ⟨hnext, declaration, hdeclared, .inr hsingle⟩ ih

end Source

namespace Graph

variable {source : Source} {config : Config} {graph : Graph} {key : PropKey} {prop : Property}
  {type : TypeNode} {name : String} {fault : Fault}

/-- What a property refers to is referred to by the type that declares the property. -/
theorem Realizes.exists_refersTo (h : graph.Realizes source config)
    (hprop : graph.prop? key = some prop)
    (hdeclared : (source.declaration? prop.type.innermost).isSome) :
    ∃ owner ∈ graph.types, source.RefersTo owner.qualifiedName prop.type.innermost := by
  obtain ⟨owner, howner, -, declaration, _, hfound, -, member, hmember, id, hmade⟩ :=
    h.exists_origin hprop
  obtain ⟨hmem, hproperty⟩ := List.mem_filter.1 (declaration.propertyMembers_perm.mem_iff.1 hmember)
  have htype : prop.type = member.type :=
    congrArg PropSpec.type (Member.spec_eq_ok_iff.1 hmade).2.2
  have htarget : member.type.innermost = prop.type.innermost := by rw [htype]
  exact ⟨owner, howner, hdeclared, declaration, hfound, .inl ⟨member, hmem, hproperty, htarget⟩⟩

/-- Where what properties refer to is registered, so is what types refer to. -/
theorem Realizes.isSome_of_refersTo (h : graph.Realizes source config)
    (hlinked : graph.LinksAll source)
    (htype : type ∈ graph.types) (hrefers : source.RefersTo type.qualifiedName name) :
    (graph.find? name).isSome := by
  obtain ⟨hname, declaration, hdeclared, ⟨member, hmember, hproperty, rfl⟩ | hsingle⟩ := hrefers
  · obtain ⟨other, hother, hmembers⟩ := (h.whole htype).members
    obtain rfl := Option.some.inj (hdeclared.symm.trans hother)
    have hlisted : member ∈ declaration.propertyMembers :=
      declaration.propertyMembers_perm.mem_iff.2 (List.mem_filter.2 ⟨hmember, hproperty⟩)
    obtain ⟨key, -, prop, hprop, -, -, hsame, -⟩ := List.Forall₂.exists_of_mem hmembers.flip hlisted
    rw [← hsame] at hname ⊢
    exact hlinked key prop hprop hname
  · obtain ⟨parent, hparent, rfl, -⟩ := h.exists_extends htype hdeclared hsingle
    rw [h.find?_qualifiedName hparent]
    rfl

/-! ### Steps that find what they refer to -/

theorem ne_unregistered_of_walkDependency {path target : String} {owner : TypeKey}
    {segments : List String} (h : graph.walkDependency path owner segments = .error fault) :
    fault ≠ .unregistered target := by
  induction segments generalizing owner with
  | nil => cases h
  | cons segment rest ih =>
    rw [walkDependency, dependencyAt] at h
    split at h
    · next hfound =>
      split at hfound <;> cases hfound
      cases h
      rintro ⟨⟩
    · split at h
      · cases h
      · split at h
        · cases h
        · split at h
          · cases h
            rintro ⟨⟩
          · exact ih (Except.map_eq_error_iff.1 h)

theorem ne_unregistered_of_followDependencies {owner : TypeKey} {paths : List String}
    {target : String} (h : graph.followDependencies owner paths = .error fault) :
    fault ≠ .unregistered target := by
  induction paths with
  | nil => cases h
  | cons path rest ih =>
    rw [followDependencies] at h
    split at h
    · next hwalk =>
      cases h
      exact ne_unregistered_of_walkDependency hwalk
    · cases h
    · exact ih (Except.map_eq_error_iff.1 h)

/-- Where what a property refers to is registered, the property is not kept from settling for want
of a registered type. -/
theorem ne_unregistered_of_attempt {target : String}
    (hlinked : ∀ name, prop.reference = some name → (graph.find? name).isSome)
    (h : graph.attempt prop = .error fault) : fault ≠ .unregistered target := by
  have hfound : graph.linkedType? prop ≠ .error fault := by
    rw [linkedType?]
    cases hreference : prop.reference with
    | none => rintro ⟨⟩
    | some name =>
      obtain ⟨type, htype⟩ := Option.isSome_iff_exists.1 (hlinked name hreference)
      simp [htype]
  rw [attempt] at h
  cases hkind : prop.kind with
  | sql _ => simp [hkind] at h
  | scalar =>
    simp only [hkind, settleScalar, Except.map_eq_error_iff, Except.bind_eq_error_iff] at h
    rcases h with hnone | ⟨linked, -, hsettle⟩
    · exact absurd hnone hfound
    · cases hsettle
  | association =>
    simp only [hkind, settleAssociation, Except.map_eq_error_iff, Except.bind_eq_error_iff] at h
    rcases h with hnone | ⟨linked, -, hsettle⟩
    · exact absurd hnone hfound
    · split at hsettle
      · cases hsettle
        rintro ⟨⟩
      · split at hsettle
        · cases hsettle
        · cases hsettle
          rintro ⟨⟩
  | expression paths =>
    simp only [hkind, Except.map_eq_error_iff] at h
    exact ne_unregistered_of_followDependencies h

end Graph

namespace Registry

variable {source : Source} {config : Config} {registry start middle after : Registry}
  {key : PropKey} {index count : Nat}

/-! ### The loop -/

/-- The loop over the properties runs from an index on to an outcome. It looks at the number of
properties anew each time, so that it sees those that it adds. The first number is how often the
body of the loop is run; no rule bounds it. -/
inductive Links (source : Source) (config : Config) :
    Nat → Nat → Registry → Outcome Unit → Prop where
  | done {index : Nat} {registry : Registry} :
    registry.graph.props.length ≤ index →
    Links source config 0 index registry ⟨.ok (), registry⟩
  | fails {index : Nat} {registry after : Registry} {violation : Violation} :
    index < registry.graph.props.length →
    registry.linkTarget source config ⟨index⟩ = ⟨.error violation, after⟩ →
    Links source config 1 index registry ⟨.error violation, after⟩
  | next {runs index : Nat} {registry middle : Registry} {outcome : Outcome Unit} :
    index < registry.graph.props.length →
    registry.linkTarget source config ⟨index⟩ = ⟨.ok (), middle⟩ →
    Links source config runs (index + 1) middle outcome →
    Links source config (runs + 1) index registry outcome

/-- The loop has one outcome. -/
theorem Links.unique {runs runs' : Nat} {outcome outcome' : Outcome Unit}
    (h : Links source config runs index registry outcome)
    (h' : Links source config runs' index registry outcome') : outcome = outcome' := by
  induction h generalizing runs' with
  | done hend =>
    cases h' with
    | done => rfl
    | fails hlt | next hlt => exact absurd hlt (Nat.not_lt.2 hend)
  | fails hlt hstep =>
    cases h' with
    | done hend => exact absurd hlt (Nat.not_lt.2 hend)
    | fails _ hstep' => exact hstep.symm.trans hstep'
    | next _ hstep' => cases hstep.symm.trans hstep'
  | next hlt hstep _ ih =>
    cases h' with
    | done hend => exact absurd hlt (Nat.not_lt.2 hend)
    | fails _ hstep' => cases hstep.symm.trans hstep'
    | next _ hstep' hrest =>
      cases hstep.symm.trans hstep'
      exact ih hrest

/-- Where there is no property nothing is linked. -/
theorem linkTarget_of_length_le (h : registry.graph.props.length ≤ key.index) :
    registry.linkTarget source config key = ⟨.ok (), registry⟩ := by
  rw [linkTarget, Graph.prop?, List.getElem?_eq_none h]
  rfl

/-- The loop comes to an end before its index has passed the number of declared members, so the
members that are counted in advance are enough. -/
theorem exists_links (h : registry.graph.Realizes source config)
    (hcount : index + count = source.memberCount) :
    ∃ runs ≤ count, Links source config runs index registry
      (forEach (linkTarget source config) ((List.range' index count).map PropKey.mk) registry) := by
  induction count generalizing registry index with
  | zero =>
    have hle := h.length_props_le
    exact ⟨0, le_rfl, .done (by omega)⟩
  | succ count ih =>
    by_cases hlt : index < registry.graph.props.length
    · obtain ⟨hrealizes, -⟩ := linkTarget_adds h ⟨index⟩
      rw [List.range'_succ, List.map_cons, forEach]
      cases hstep : registry.linkTarget source config ⟨index⟩ with
      | mk result middle =>
        rw [hstep] at hrealizes
        cases result with
        | error violation => exact ⟨1, by omega, .fails hlt hstep⟩
        | ok _ =>
          have hcount' : index + 1 + count = source.memberCount := by omega
          obtain ⟨runs, hruns, hlinks⟩ := ih hrealizes hcount'
          exact ⟨runs + 1, by omega, .next hlt hstep hlinks⟩
    · rw [forEach_eq_of_forall]
      · exact ⟨0, Nat.zero_le _, .done (Nat.not_lt.1 hlt)⟩
      · intro key hkey
        obtain ⟨position, hposition, rfl⟩ := List.mem_map.1 hkey
        rw [List.mem_range'_1] at hposition
        exact linkTarget_of_length_le (by simpa using (Nat.not_lt.1 hlt).trans hposition.1)

/-! ### What the loop registers -/

/-- The loop has come to an index: it has added types, references lead to all types from those at
the start, and what the properties before the index refer to is registered. -/
structure LinkedUpTo (source : Source) (config : Config) (start : Registry) (index : Nat)
    (registry : Registry) : Prop where
  realizes : registry.graph.Realizes source config
  adds : ∃ types props, start.Adds types props registry
  reached : ∀ type ∈ registry.graph.types, ∃ root ∈ start.graph.types,
    ReflTransGen source.RefersTo root.qualifiedName type.qualifiedName
  linked : registry.graph.LinksBefore source index

namespace LinkedUpTo

/-- At the start nothing is linked. -/
theorem initial (h : start.graph.Realizes source config) :
    start.LinkedUpTo source config 0 start where
  realizes := h
  adds := ⟨[], [], .nil start⟩
  reached type htype := ⟨type, htype, .refl⟩
  linked _ _ hlt := absurd hlt (Nat.not_lt_zero _)

/-- One run of the body links one property more. -/
theorem next (h : start.LinkedUpTo source config index registry)
    (hstep : registry.linkTarget source config ⟨index⟩ = ⟨.ok (), middle⟩) :
    start.LinkedUpTo source config (index + 1) middle := by
  have hlinked := linkTarget_linksBefore h.realizes h.linked hstep
  rcases linkTarget_cases h.realizes ⟨index⟩ with ⟨prop, hprop, hdeclared, hlink⟩ | ⟨-, hlink⟩
  · obtain rfl := congrArg Outcome.registry (hlink.symm.trans hstep)
    obtain ⟨hrealizes, -, -⟩ := resolve_registers h.realizes prop.type.innermost
    obtain ⟨oldTypes, oldProps, hold⟩ := h.adds
    obtain ⟨types, props, hadds, habove⟩ :=
      resolve_adds source config prop.type.innermost registry
    refine ⟨hrealizes, ⟨_, _, hold.append hadds⟩, fun type htype => ?_, hlinked⟩
    have hmem := htype
    rw [Outcome.forget, hadds.types_eq, List.mem_append] at hmem
    rcases hmem with hmem | hmem
    · exact h.reached type hmem
    · -- a new type is above what the property refers to, which its owner refers to
      obtain ⟨owner, howner, hrefers⟩ := h.realizes.exists_refersTo hprop hdeclared
      obtain ⟨root, hroot, hchain⟩ := h.reached owner howner
      have htypeDeclared : (source.declaration? type.qualifiedName).isSome :=
        hrealizes.isSome_declaration? (by rw [hrealizes.find?_qualifiedName htype]; rfl)
      exact ⟨root, hroot, (hchain.tail hrefers).trans
        (Source.refersTo_of_ascends (habove type hmem) htypeDeclared)⟩
  · obtain rfl : registry = middle := congrArg Outcome.registry (hlink.symm.trans hstep)
    exact ⟨h.realizes, h.adds, h.reached, hlinked⟩

end LinkedUpTo

/-- A loop that succeeds has linked all properties. -/
theorem Links.linkedUpTo {runs : Nat} {outcome : Outcome Unit}
    (hlinks : Links source config runs index registry outcome)
    (h : start.LinkedUpTo source config index registry)
    (hresult : outcome.result = .ok ()) :
    ∃ last, outcome.registry.graph.props.length ≤ last ∧
      start.LinkedUpTo source config last outcome.registry := by
  induction hlinks with
  | done hend => exact ⟨_, hend, h⟩
  | fails => cases hresult
  | next _ hstep _ ih => exact ih (h.next hstep) hresult

/-! ### Closed registries -/

/-- Properties stay linked for as long as no type is added. -/
theorem linksAll_of_moves {later : Registry} (h : after.graph.LinksAll source)
    (hgraph : after.graph.Realizes source config)
    (hmoves : ReflTransGen (Moves source config) after later)
    (htypes : later.graph.types = after.graph.types) : later.graph.LinksAll source := by
  obtain ⟨hlater, hcontinues⟩ := continues_of_moves hmoves hgraph
  -- the types declare all properties, so there are no new ones
  have hkeys : later.graph.propKeys = after.graph.propKeys := by
    rw [← hlater.declared, ← hgraph.declared, htypes]
  have hlength : later.graph.props.length = after.graph.props.length := by
    simpa [Graph.propKeys] using congrArg List.length hkeys
  intro key prop hprop hdeclared
  have hlt : key.index < after.graph.props.length :=
    hlength ▸ (List.getElem?_eq_some_iff.1 hprop).1
  obtain ⟨before, hbefore⟩ : ∃ before, after.graph.prop? key = some before :=
    ⟨_, List.getElem?_eq_getElem hlt⟩
  have hfresh : later.graph.fresh.prop? key = some before.fresh :=
    hcontinues.prop?_fresh (by rw [Graph.prop?_fresh, hbefore, Option.map_some])
  rw [Graph.prop?_fresh, hprop, Option.map_some, Option.some.injEq] at hfresh
  have htype : prop.type = before.type := congrArg (·.toPropSpec.type) hfresh
  rw [htype] at hdeclared ⊢
  obtain ⟨type, hfound⟩ := Option.isSome_iff_exists.1 (h key before hbefore hdeclared)
  have hstays := hgraph.find?_mono hlater.toIndexed hcontinues.toGrows hfound
  exact Option.isSome_iff_exists.2 ⟨type, hstays⟩

/-- Where all properties are linked, no step fails for want of a registered type. -/
theorem ne_unregistered_of_linksAll (h : registry.graph.LinksAll source)
    (hgraph : registry.graph.Realizes source config) {round : Nat} {violation : Violation}
    (hresult : (registry.resolveProperty round key).result = .error violation) (target : String) :
    violation.fault ≠ .unregistered target := by
  have hstep := resolveProperty_step round key registry
  generalize registry.resolveProperty round key = outcome at hstep hresult
  cases hstep with
  | idle | waits | settles => cases hresult
  | @fails prop fault hprop _ hattempt =>
    obtain rfl := Except.error.inj hresult
    refine Graph.ne_unregistered_of_attempt (fun name hname => ?_) hattempt
    rw [hgraph.reference_eq hprop, Option.map_eq_some_iff] at hname
    obtain ⟨declaration, hdeclared, rfl⟩ := hname
    exact h key prop hprop (by rw [hdeclared]; rfl)

/-- What linking has made of a registry. -/
structure LinkClosure (source : Source) (config : Config) (before after : Registry) : Prop where
  /-- Types have been added to those that were there. -/
  adds : ∃ types props, before.Adds types props after
  /-- What any property refers to is registered, if it is declared. -/
  linked : after.graph.LinksAll source
  /-- Exactly what references lead to is registered. -/
  registered_iff : ∀ name, (after.graph.find? name).isSome ↔
    ∃ type ∈ before.graph.types, ReflTransGen source.RefersTo type.qualifiedName name
  /-- Whatever is done from here on (every call comes down to moves, `LeadsTo.moves`), as long as no
  type is added no step of a property fails for want of a registered type. -/
  unhindered : ∀ later, ReflTransGen (Moves source config) after later →
    later.graph.types = after.graph.types →
    ∀ round key violation, (later.resolveProperty round key).result = .error violation →
      ∀ target, violation.fault ≠ .unregistered target
  /-- Another call changes nothing. -/
  again : after.linkTargets source config = ⟨.ok (), after⟩

end Registry

variable {source : Source} {config : Config} {registry : Registry}

/-- To link what properties refer to comes to an end from every reachable registry, though there may
be more and more properties: the loop runs to exactly one outcome, and its body as often as there
are declared members at most. If it succeeds, it has registered what references lead to. -/
theorem Reachable.linkTargets_closure (h : Reachable source config registry) :
    (∃ runs ≤ source.memberCount, Registry.Links source config runs 0 registry
      (registry.linkTargets source config)) ∧
    (∀ runs outcome, Registry.Links source config runs 0 registry outcome →
      outcome = registry.linkTargets source config) ∧
    ∀ after, registry.linkTargets source config = ⟨.ok (), after⟩ →
      registry.LinkClosure source config after := by
  have hgraph := h.sound.realizes
  obtain ⟨runs, hruns, hrun⟩ := Registry.exists_links hgraph (Nat.zero_add source.memberCount)
  have hlinks : Registry.Links source config runs 0 registry
      (registry.linkTargets source config) := by
    rwa [Registry.linkTargets, List.range_eq_range']
  refine ⟨⟨runs, hruns, hlinks⟩, fun _ _ hother => hother.unique hlinks, fun after hafter => ?_⟩
  obtain ⟨last, hlast, hupTo⟩ := hlinks.linkedUpTo (.initial hgraph) (by rw [hafter])
  rw [hafter] at hlast hupTo
  have hall : after.graph.LinksAll source := hupTo.linked.linksAll hlast
  refine {
    adds := hupTo.adds
    linked := hall
    registered_iff := fun name => ⟨fun hname => ?_, ?_⟩
    unhindered := ?_
    again := Registry.linkTargets_eq_of_linksAll hupTo.realizes hall }
  · obtain ⟨type, htype⟩ := Option.isSome_iff_exists.1 hname
    obtain ⟨hmem, rfl⟩ := hupTo.realizes.find?_eq_some_iff.1 htype
    exact hupTo.reached type hmem
  · rintro ⟨type, htype, hchain⟩
    obtain ⟨types, props, hadds⟩ := hupTo.adds
    induction hchain with
    | refl =>
      have hfound := hgraph.find?_mono hupTo.realizes.toIndexed hadds.grows
        (hgraph.find?_qualifiedName htype)
      exact Option.isSome_iff_exists.2 ⟨type, hfound⟩
    | tail _ hrefers ih =>
      obtain ⟨lower, hlower⟩ := Option.isSome_iff_exists.1 ih
      obtain ⟨hmem, rfl⟩ := hupTo.realizes.find?_eq_some_iff.1 hlower
      exact hupTo.realizes.isSome_of_refersTo hall hmem hrefers
  · intro later hmoves htypes round key violation hresult target
    exact Registry.ne_unregistered_of_linksAll
      (Registry.linksAll_of_moves hall hupTo.realizes hmoves htypes)
      (Registry.continues_of_moves hmoves hupTo.realizes).1 hresult target

/-- Books and their authors, who refer to each other; a book may continue another, and is below a
type that has a place. Nothing refers to notes. -/
def library : Source where
  declarations := {
    toList := [
      { simpleName := "Note"
        tags := [.embeddable]
        members := [{ name := "author", type := .named "Author" }] },
      { simpleName := "Author"
        tags := [.entity none]
        members := [
          { name := "id", type := .named "int", tags := [.id] },
          { name := "books", type := .list (.named "Book") }] },
      { simpleName := "Book"
        tags := [.entity none]
        interfaces := ["Shelved"]
        members := [
          { name := "author", type := .named "Author" },
          { name := "sequel", type := .named "Book" }] },
      { simpleName := "Shelved"
        tags := [.mappedSuperclass none false]
        members := [
          { name := "number", type := .named "int", tags := [.id] },
          { name := "place", type := .named "Place" }] },
      { simpleName := "Place"
        tags := [.embeddable]
        members := [{ name := "shelf", type := .named "string" }] }]
    names_nodup := by decide }

theorem Reachable.linkTargets_closure_library :
    ∃ registry after, Reachable library {} registry ∧
      registry.graph.types.map (·.qualifiedName) = ["Author"] ∧
      (∃ runs ≤ library.memberCount, Registry.Links library {} runs 0 registry
        (registry.linkTargets library {})) ∧
      registry.linkTargets library {} = ⟨.ok (), after⟩ ∧
      after.graph.types.map (·.qualifiedName) = ["Author", "Shelved", "Book", "Place"] ∧
      registry.LinkClosure library {} after := by
  have hreachable : LeadsTo library {} {} _ := .step (.resolve "Author") .refl
  have hlinks := Reachable.linkTargets_closure hreachable
  let outcome := ((Command.resolve "Author").run library {} {}).registry.linkTargets library {}
  have hresult : outcome.result = .ok () := by decide +kernel
  have hafter : outcome = ⟨.ok (), outcome.registry⟩ := by rw [← hresult]
  exact ⟨_, _, hreachable, by decide +kernel, hlinks.1, hafter, by decide +kernel,
    hlinks.2.2 _ hafter⟩

end Metamodel
