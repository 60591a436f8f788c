import Metamodel.Proofs.Graph.Ancestry
import Metamodel.Proofs.Graph.Twins
import Metamodel.Proofs.WellFormed

/-!
# Registration does not depend on what is registered

A name is registered or not, and if not for which reason, whatever calls were made before. Where a
registration fails, nothing on the way up to the failure has a lineage, so that none of it was ever
registered and the way is the same from every registry (`Registry.resolve_error`). Where it
succeeds, the type and its ancestors are twins of those that an empty registry would have.
`Reachable.resolve_independent` has both.
-/

namespace Metamodel

open Relation (ReflTransGen)

namespace Graph

variable {source : Source} {config : Config} {graph other : Graph} {type type' : TypeNode}
  {lineage : Lineage}

/-! ### Chains of ancestors -/

/-- The type at a key and its ancestors, from the type up. -/
def chain (graph : Graph) (key : TypeKey) : List TypeNode :=
  match graph.type? key with
  | none => []
  | some type =>
    match type.superType with
    | none => [type]
    | some ancestor =>
      if ancestor.index < key.index then type :: graph.chain ancestor else [type]
termination_by key.index

/-- A type in names, with the properties that it declares. How far their resolution has come is
left out. -/
def typeInNames (graph : Graph) (type : TypeNode) : TypeView × List (Option LineageProp) :=
  (graph.typeView type, type.declared.map graph.named?)

namespace Places

theorem chain_root (hkey : graph.type? type.key = some type) (hroot : type.superType = none) :
    graph.chain type.key = [type] := by
  rw [chain, hkey]
  simp only [hroot]

theorem chain_child {parent : TypeKey} (hkey : graph.type? type.key = some type)
    (hparent : type.superType = some parent) (hlt : parent.index < type.key.index) :
    graph.chain type.key = type :: graph.chain parent := by
  rw [chain, hkey]
  simp only [hparent, if_pos hlt]

/-- The chain of a placed type has the type and its ancestors, and nothing else. -/
theorem mem_chain_iff {owner : TypeNode} (h : graph.Places type lineage) :
    owner ∈ graph.chain type.key ↔ ReflTransGen graph.Extends type owner := by
  induction h with
  | root hbuilds hroot =>
    rw [chain_root hbuilds.key hroot, List.mem_singleton]
    constructor
    · intro heq
      exact heq ▸ .refl
    · intro hchain
      rcases ReflTransGen.cases_head hchain with heq | ⟨next, hextends, -⟩
      · exact heq.symm
      · exact absurd hextends (not_extends_of_root hroot)
  | @child type parent _ _ hbuilds hparent hlt hplaces ih =>
    have hextends : graph.Extends type parent := ⟨_, hparent, hplaces.type?_key⟩
    rw [chain_child hbuilds.key hparent hlt, List.mem_cons, ih]
    constructor
    · intro howner
      rcases howner with rfl | hchain
      · exact .refl
      · exact .head hextends hchain
    · intro hchain
      rcases ReflTransGen.cases_head hchain with heq | ⟨next, hnext, hrest⟩
      · exact .inl heq.symm
      · exact .inr (hnext.unique hextends ▸ hrest)

end Places

namespace Twins

theorem typeInNames_eq (h : graph.Twins other type type') :
    other.typeInNames type' = graph.typeInNames type := by
  rw [typeInNames, typeInNames, h.typeView_eq, h.map_declared]

/-- Twins have the same ancestors in names. -/
theorem map_chain (h : graph.Twins other type type') :
    (other.chain type'.key).map other.typeInNames =
      (graph.chain type.key).map graph.typeInNames := by
  obtain ⟨lineage, hplaces, hplaces'⟩ := h
  induction hplaces generalizing type' with
  | root hbuilds hroot =>
    have htwins : graph.Twins other _ type' := ⟨_, .root hbuilds hroot, hplaces'⟩
    cases hplaces' with
    | root hbuilds' hroot' =>
      rw [Places.chain_root hbuilds.key hroot, Places.chain_root hbuilds'.key hroot',
        List.map_singleton, List.map_singleton, htwins.typeInNames_eq]
    | child _ _ _ hnone =>
      obtain ⟨_, _, _, hcons, -⟩ := hnone.head
      cases hcons
  | child hbuilds hparent hlt hplaces ih =>
    have htwins : graph.Twins other _ type' := ⟨_, .child hbuilds hparent hlt hplaces, hplaces'⟩
    cases hplaces' with
    | root _ _ =>
      obtain ⟨_, _, _, hcons, -⟩ := hplaces.head
      cases hcons
    | child hbuilds' hparent' hlt' habove' =>
      rw [Places.chain_child hbuilds.key hparent hlt, Places.chain_child hbuilds'.key hparent' hlt',
        List.map_cons, List.map_cons, htwins.typeInNames_eq, ih habove']

end Twins

/-- What has no lineage is not registered. -/
theorem Realizes.keyOf?_eq_none (h : graph.Realizes source config) {name : String}
    (hnone : ¬ ∃ lineage, source.HasLineage config name lineage) : graph.keyOf? name = none := by
  refine h.keyOf?_eq_none_iff.2 fun hname => ?_
  obtain ⟨type, hmem, rfl⟩ := List.mem_map.1 hname
  obtain ⟨lineage, hlineage, -⟩ := h.placed type hmem
  exact hnone ⟨lineage, hlineage⟩

end Graph

namespace Registry

variable {source : Source} {config : Config} {registry first second : Registry} {name : String}

/-! ### Failures -/

/-- No name under construction has a lineage. -/
def Fruitless (source : Source) (config : Config) (registry : Registry) : Prop :=
  ∀ busy ∈ registry.inProgress, ¬ ∃ lineage, source.HasLineage config busy lineage

theorem Fruitless.enter (h : registry.Fruitless source config)
    (hnone : ¬ ∃ lineage, source.HasLineage config name lineage) :
    (registry.enter name).Fruitless source config := by
  intro busy hbusy
  rcases List.mem_append.1 hbusy with hbusy | hself
  · exact h busy hbusy
  · exact List.mem_singleton.1 hself ▸ hnone

/-- Where only names without lineage are under construction, a name with a lineage is
registered. -/
theorem Fruitless.exists_key (h : registry.Fruitless source config)
    (hgraph : registry.graph.Realizes source config) {lineage : Lineage}
    (hlineage : source.HasLineage config name lineage) :
    ∃ key, (registry.resolve source config name).result = .ok key := by
  refine resolve_ok_of_hasLineage hlineage hgraph fun blueprint hblueprint hbusy => ?_
  obtain ⟨before, after, rfl⟩ := List.append_of_mem hblueprint
  exact h _ hbusy ⟨_, hlineage.suffix (List.suffix_append before (blueprint :: after))⟩

/-- The ancestor that was registered for a type has its place and its lineage. -/
theorem exists_parent (hgraph : registry.graph.Realizes source config) {header : Header}
    {ancestor : String} (hancestor : header.ancestor = some ancestor) {key : TypeKey}
    (hresult : (registry.resolve source config ancestor).result = .ok key) :
    ∃ above, source.HasLineage config ancestor above ∧
      (registry.resolve source config ancestor).registry.graph.Parent source config header
        (some key) above := by
  obtain ⟨hrealizes, -, hfound⟩ := resolve_registers hgraph ancestor
  obtain ⟨parent, hparent, rfl⟩ := hfound hresult
  obtain ⟨hmem, rfl⟩ := hrealizes.find?_eq_some_iff.1 hparent
  obtain ⟨above, habove, hplaces⟩ := hrealizes.placed parent hmem
  exact ⟨above, habove, .under hancestor habove hplaces⟩

/-- The construction of a type under its ancestor fails for the reason that its blueprint gives. -/
theorem construct_error {declaration : Declaration} {header : Header} {ancestor : Option TypeKey}
    {above : Lineage} {violation : Violation}
    (hparent : registry.graph.Parent source config header ancestor above)
    (h : Blueprint.ofDeclaration source config declaration header above.inherited? =
      .error violation) :
    (registry.construct source config declaration header ancestor).result = .error violation := by
  rw [construct, hparent.inherited?_eq, h]

/-- A name without lineage cannot be registered, and the reason is the same whatever is registered
already. -/
theorem resolve_error (hfirst : first.graph.Realizes source config)
    (hfruitless : first.Fruitless source config)
    (hnone : ¬ ∃ lineage, source.HasLineage config name lineage) :
    ∀ second : Registry, second.graph.Realizes source config →
      first.inProgress = second.inProgress →
      ∃ violation, (first.resolve source config name).result = .error violation ∧
        (second.resolve source config name).result = .error violation := by
  fun_induction Registry.resolve source config name first with
  | case1 name first key hkey =>
    rw [hfirst.keyOf?_eq_none hnone] at hkey
    cases hkey
  | case2 name first hnew hcyclic cycle =>
    intro second hsecond hbusy
    have hnew' := hsecond.keyOf?_eq_none hnone
    refine ⟨_, rfl, ?_⟩
    rw [hbusy] at hcyclic
    rw [Registry.resolve]
    simp only [hnew', dif_pos hcyclic, cycle, hbusy]
  | case3 name first hnew hidle hundeclared =>
    intro second hsecond hbusy
    have hnew' := hsecond.keyOf?_eq_none hnone
    refine ⟨_, rfl, ?_⟩
    rw [hbusy] at hidle
    rw [Registry.resolve]
    simp only [hnew', dif_neg hidle]
    split
    · rfl
    · next hdeclared => cases hundeclared.symm.trans hdeclared
  | case4 name first hnew hidle declaration hdeclared violation hheader =>
    intro second hsecond hbusy
    have hnew' := hsecond.keyOf?_eq_none hnone
    refine ⟨_, rfl, ?_⟩
    rw [hbusy] at hidle
    rw [Registry.resolve]
    simp only [hnew', dif_neg hidle]
    split
    · next hundeclared => cases hdeclared.symm.trans hundeclared
    · next found hfound =>
      obtain rfl := Option.some.inj (hdeclared.symm.trans hfound)
      rw [hheader]
  | case5 name first hnew hidle declaration hdeclared header hheader hroot =>
    intro second hsecond hbusy
    have hnew' := hsecond.keyOf?_eq_none hnone
    rw [hbusy] at hidle
    rw [resolve_eq_of_header hnew' hidle hdeclared hheader, hroot]
    cases hblueprint : Blueprint.ofDeclaration source config declaration header
        (Lineage.inherited? []) with
    | ok blueprint => exact absurd ⟨_, .root hdeclared hheader hroot hblueprint⟩ hnone
    | error violation =>
      exact ⟨violation, construct_error (.root hroot) hblueprint,
        construct_error (.root hroot) hblueprint⟩
  | case6 name first hnew hidle declaration hdeclared header hheader ancestor hancestor outcome
      violation hresult ih =>
    intro second hsecond hbusy
    have hnew' := hsecond.keyOf?_eq_none hnone
    have henter := hfruitless.enter hnone
    -- an ancestor with a lineage would have been registered
    have habove : ¬ ∃ lineage, source.HasLineage config ancestor lineage := by
      intro hlineage
      obtain ⟨lineage, hlineage⟩ := hlineage
      obtain ⟨key, hkey⟩ := henter.exists_key hfirst hlineage
      cases hresult.symm.trans hkey
    have hbusy' : (first.enter name).inProgress = (second.enter name).inProgress := by
      rw [enter, enter, hbusy]
    obtain ⟨blamed, hblamed, hblamed'⟩ :=
      ih hfirst henter habove (second.enter name) hsecond hbusy'
    obtain rfl := Except.error.inj (hresult.symm.trans hblamed)
    rw [hbusy] at hidle
    refine ⟨violation, rfl, ?_⟩
    rw [resolve_eq_of_header hnew' hidle hdeclared hheader, hancestor]
    simp only [hblamed']
  | case7 name first hnew hidle declaration hdeclared header hheader ancestor hancestor outcome
      key hresult ih =>
    intro second hsecond hbusy
    have hnew' := hsecond.keyOf?_eq_none hnone
    have henter := hfruitless.enter hnone
    have henter' : (second.enter name).Fruitless source config := by
      intro busy hmem
      rw [enter, ← hbusy] at hmem
      exact henter busy hmem
    -- the ancestor is registered on both sides, and lends the same
    have hfirst' : (first.enter name).graph.Realizes source config := hfirst
    have hsecond' : (second.enter name).graph.Realizes source config := hsecond
    obtain ⟨above, habove, hparent⟩ := exists_parent hfirst' hancestor hresult
    obtain ⟨key', hresult'⟩ := henter'.exists_key hsecond' habove
    obtain ⟨above', habove', hparent'⟩ := exists_parent hsecond' hancestor hresult'
    obtain rfl := habove.unique habove'
    cases hblueprint : Blueprint.ofDeclaration source config declaration header
        above.inherited? with
    | ok blueprint =>
      exact absurd ⟨_, .child hdeclared hheader hancestor habove hblueprint⟩ hnone
    | error violation =>
      rw [hbusy] at hidle
      refine ⟨violation, construct_error hparent hblueprint, ?_⟩
      rw [resolve_eq_of_header hnew' hidle hdeclared hheader, hancestor]
      simp only [hresult']
      exact construct_error hparent' hblueprint

end Registry

variable {source : Source} {config : Config} {registry : Registry}

/-- Whatever calls were made before, failing ones and steps of properties included, a name is
registered exactly if an empty registry registers it, and otherwise fails for the same reason. The
type of the name and all its ancestors, with the properties that they declare, are in names what
they are there, however far their resolution has come. -/
theorem Reachable.resolve_independent (h : Reachable source config registry) (name : String) :
    (∀ violation, (registry.resolve source config name).result = .error violation ↔
      (Registry.resolve source config name {}).result = .error violation) ∧
    ∀ key alone, (registry.resolve source config name).result = .ok key →
      (Registry.resolve source config name {}).result = .ok alone →
      let graph := (registry.resolve source config name).registry.graph
      let other := (Registry.resolve source config name {}).registry.graph
      (∃ type, graph.find? name = some type ∧ type.key = key ∧
        ∀ owner, owner ∈ graph.chain key ↔ ReflTransGen graph.Extends type owner) ∧
      (graph.chain key).map graph.typeInNames = (other.chain alone).map other.typeInNames := by
  have hgraph := h.sound.realizes
  have hidle := h.sound.inProgress_eq
  have hempty : ({} : Registry).graph.Realizes source config := .empty
  constructor
  · intro violation
    by_cases hlineage : ∃ lineage, source.HasLineage config name lineage
    · obtain ⟨key, hkey⟩ := (Registry.resolve_ok_iff hgraph hidle name).2 hlineage
      obtain ⟨alone, halone⟩ := (Registry.resolve_ok_iff hempty rfl name).2 hlineage
      rw [hkey, halone]
      constructor <;> nofun
    · have hfruitless : registry.Fruitless source config := by
        intro busy hbusy
        rw [hidle] at hbusy
        cases hbusy
      obtain ⟨blamed, hblamed, hblamed'⟩ :=
        Registry.resolve_error hgraph hfruitless hlineage {} hempty hidle
      rw [hblamed, hblamed']
  · intro key alone hkey halone
    obtain ⟨hrealizes, -, hfound⟩ := Registry.resolve_registers hgraph name
    obtain ⟨hrealizes', -, hfound'⟩ := Registry.resolve_registers hempty name
    obtain ⟨type, htype, rfl⟩ := hfound hkey
    obtain ⟨type', htype', rfl⟩ := hfound' halone
    obtain ⟨hmem, hname⟩ := hrealizes.find?_eq_some_iff.1 htype
    obtain ⟨hmem', hname'⟩ := hrealizes'.find?_eq_some_iff.1 htype'
    obtain ⟨lineage, hlineage, hplaces⟩ := hrealizes.placed type hmem
    obtain ⟨lineage', hlineage', hplaces'⟩ := hrealizes'.placed type' hmem'
    rw [hname] at hlineage
    rw [hname'] at hlineage'
    obtain rfl := hlineage.unique hlineage'
    have htwins : Graph.Twins _ _ type' type := ⟨lineage, hplaces', hplaces⟩
    exact ⟨⟨type, htype, rfl, fun _ => hplaces.mem_chain_iff⟩, htwins.map_chain⟩

/-- Entries of a ledger below a mapped superclass, and a draft of theirs that declares its text
twice. -/
def ledger : Source where
  declarations := {
    toList := [
      { simpleName := "Draft"
        tags := [.entity none]
        interfaces := ["Numbered"]
        members := [
          { name := "text", type := .named "string" },
          { name := "text", type := .named "string" }] },
      { simpleName := "Entry"
        tags := [.entity none]
        interfaces := ["Numbered"]
        members := [{ name := "text", type := .named "string" }] },
      { simpleName := "Numbered"
        tags := [.mappedSuperclass none false]
        members := [{ name := "number", type := .named "int", tags := [.id] }] }]
    names_nodup := by decide }

theorem Reachable.resolve_independent_ledger :
    ∃ registry, Reachable ledger {} registry ∧
      registry.graph.props.map (·.resolution.name) = ["Resolved"] ∧
      (∃ violation, (registry.resolve ledger {} "Draft").result = .error violation ∧
        (Registry.resolve ledger {} "Draft" {}).result = .error violation) ∧
      ∃ key alone, (registry.resolve ledger {} "Entry").result = .ok key ∧
        (Registry.resolve ledger {} "Entry" {}).result = .ok alone ∧
        let graph := (registry.resolve ledger {} "Entry").registry.graph
        let other := (Registry.resolve ledger {} "Entry" {}).registry.graph
        (graph.chain key).map graph.typeInNames = (other.chain alone).map other.typeInNames := by
  -- the draft fails and leaves its ancestor behind, whose number is settled then
  have hreachable : LeadsTo ledger {} {} _ := .step (.resolveType ⟨0⟩ 1) <|
    .step (.resolve "Draft") .refl
  refine ⟨_, hreachable, by decide +kernel, ?_, ⟨1⟩, ⟨1⟩, by decide +kernel, by decide +kernel, ?_⟩
  · refine ⟨.ofMember "Draft" "text" .redeclared, ?_, by decide +kernel⟩
    exact ((Reachable.resolve_independent hreachable "Draft").1 _).2 (by decide +kernel)
  · exact ((Reachable.resolve_independent hreachable "Entry").2 _ _ (by decide +kernel)
      (by decide +kernel)).2

end Metamodel
