import Metamodel.Proofs.Graph.Growth
import Metamodel.Proofs.Graph.Navigation

/-!
# Graphs with the same types under other keys

Two graphs that place the lineages of one source may give them different keys. Types of one lineage
are `Twins`; properties correspond when `Graph.named?` says the same of both. If the graphs agree
on whether what such properties refer to is registered, then whatever is said about a graph by
declaration carries over along twins: what a property links to (`Compatible.link?_cases`), where
paths lead (`Compatible.navigates`), and what is grounded (`Compatible.grounded`). So it is for
graphs with the same names (`Counterparts`), and for a graph that has all that its properties refer
to beside one that has more (`PartOf`).
-/

namespace Metamodel

namespace Graph

variable {graph other : Graph} {type type' : TypeNode} {key key' : PropKey} {prop prop' : Property}

/-- A type of one graph and one of another have the same lineage. -/
def Twins (graph other : Graph) (type type' : TypeNode) : Prop :=
  ∃ lineage, graph.Places type lineage ∧ other.Places type' lineage

namespace Twins

theorem symm (h : graph.Twins other type type') : other.Twins graph type' type := by
  obtain ⟨lineage, hplaces, hplaces'⟩ := h
  exact ⟨lineage, hplaces', hplaces⟩

/-- Twins have the same view. -/
theorem typeView_eq (h : graph.Twins other type type') :
    other.typeView type' = graph.typeView type := by
  obtain ⟨lineage, hplaces, hplaces'⟩ := h
  obtain ⟨blueprint, above, -, rfl, -⟩ := hplaces.head
  rw [hplaces.typeView_eq, hplaces'.typeView_eq]

theorem qualifiedName_eq (h : graph.Twins other type type') :
    type'.qualifiedName = type.qualifiedName :=
  congrArg TypeView.qualifiedName h.typeView_eq

theorem category_eq (h : graph.Twins other type type') : type'.category = type.category :=
  congrArg TypeView.category h.typeView_eq

/-- The keys of twins name one type. -/
theorem typeName_eq (h : graph.Twins other type type') :
    other.typeName type'.key = graph.typeName type.key := by
  have hname := h.qualifiedName_eq
  obtain ⟨lineage, hplaces, hplaces'⟩ := h
  simp [typeName, hplaces.type?_key, hplaces'.type?_key, hname]

/-- Twins have corresponding properties in their merged views. -/
theorem map_mergedProps (h : graph.Twins other type type') :
    (other.mergedProps type'.key).map other.named? =
      (graph.mergedProps type.key).map graph.named? := by
  obtain ⟨lineage, hplaces, hplaces'⟩ := h
  rw [lists_iff.1 hplaces.lists_mergedProps, lists_iff.1 hplaces'.lists_mergedProps]

/-- Twins declare corresponding properties. -/
theorem map_declared (h : graph.Twins other type type') :
    type'.declared.map other.named? = type.declared.map graph.named? := by
  obtain ⟨lineage, hplaces, hplaces'⟩ := h
  obtain ⟨blueprint, above, inherited, rfl, hbuilds⟩ := hplaces.head
  obtain ⟨_, _, inherited', heq, hbuilds'⟩ := hplaces'.head
  cases heq
  rw [lists_iff.1 hbuilds.lists_declared, lists_iff.1 hbuilds'.lists_declared]

end Twins

/-- Two graphs place lineages of one source, and what a property of both refers to is registered
in both or in neither. -/
structure Compatible (source : Source) (config : Config) (graph other : Graph) : Prop where
  left : graph.Realizes source config
  right : other.Realizes source config
  known : ∀ {key key' : PropKey} {prop prop' : Property}, graph.prop? key = some prop →
    other.prop? key' = some prop' → prop'.toPropSpec = prop.toPropSpec →
    ((graph.find? prop.type.innermost).isSome ↔ (other.find? prop'.type.innermost).isSome)

/-- A graph has some of the types of another one and all that these refer to there. -/
structure PartOf (source : Source) (config : Config) (part whole : Graph) : Prop
    extends Compatible source config part whole where
  names : ∀ name, (part.find? name).isSome → (whole.find? name).isSome

/-- Two graphs place the lineages of one source under the same names. -/
structure Counterparts (source : Source) (config : Config) (graph other : Graph) : Prop where
  left : graph.Realizes source config
  right : other.Realizes source config
  names : ∀ name, (graph.find? name).isSome ↔ (other.find? name).isSome

variable {source : Source} {config : Config}

namespace Counterparts

theorem symm (h : Counterparts source config graph other) :
    Counterparts source config other graph :=
  ⟨h.right, h.left, fun name => (h.names name).symm⟩

/-- Each of two counterparts is part of the other. -/
theorem partOf (h : Counterparts source config graph other) : PartOf source config graph other where
  left := h.left
  right := h.right
  known _ _ hspec := by
    rw [show _ = _ from congrArg PropSpec.type hspec]
    exact h.names _
  names name := (h.names name).1

end Counterparts

namespace Compatible

theorem symm (h : Compatible source config graph other) :
    Compatible source config other graph :=
  ⟨h.right, h.left, fun hkey hkey' hspec => (h.known hkey' hkey hspec.symm).symm⟩

/-- Types of one name are twins. -/
theorem twins (h : Compatible source config graph other) {name : String}
    (hfound : graph.find? name = some type) (hfound' : other.find? name = some type') :
    graph.Twins other type type' := by
  obtain ⟨hmem, rfl⟩ := h.left.find?_eq_some_iff.1 hfound
  obtain ⟨hmem', hname⟩ := h.right.find?_eq_some_iff.1 hfound'
  obtain ⟨lineage, hlineage, hplaces⟩ := h.left.placed type hmem
  obtain ⟨lineage', hlineage', hplaces'⟩ := h.right.placed type' hmem'
  obtain rfl := hlineage.unique (hname ▸ hlineage')
  exact ⟨lineage, hplaces, hplaces'⟩

/-- A name that is registered in both graphs or in neither has twins there, or no types. -/
theorem find?_cases (h : Compatible source config graph other) {name : String}
    (hname : (graph.find? name).isSome ↔ (other.find? name).isSome) :
    graph.find? name = none ∧ other.find? name = none ∨
      ∃ type type', graph.find? name = some type ∧ other.find? name = some type' ∧
        graph.Twins other type type' := by
  cases hfound : graph.find? name with
  | some type =>
    obtain ⟨type', hfound'⟩ := Option.isSome_iff_exists.1 (hname.1 (by simp [hfound]))
    exact .inr ⟨type, type', rfl, hfound', h.twins hfound hfound'⟩
  | none =>
    refine .inl ⟨rfl, ?_⟩
    simpa [hfound] using hname

/-- Corresponding properties say the same and are declared by twins. -/
theorem prop? (h : Compatible source config graph other)
    (hsame : other.named? key' = graph.named? key) (hkey : graph.prop? key = some prop) :
    ∃ prop' type type', other.prop? key' = some prop' ∧ prop'.toPropSpec = prop.toPropSpec ∧
      graph.Twins other type type' ∧ prop.declaringType = type.key ∧
      prop'.declaringType = type'.key := by
  rw [named?, named?, hkey, Option.map_some, Option.map_eq_some_iff] at hsame
  obtain ⟨prop', hkey', hnamed⟩ := hsame
  have hspec : prop'.toPropSpec = prop.toPropSpec := congrArg LineageProp.spec hnamed
  have howner : other.typeName prop'.declaringType = graph.typeName prop.declaringType :=
    congrArg LineageProp.owner hnamed
  -- both owners are placed under one name, so they have one lineage
  obtain ⟨type, _, _, hmem, -, hlineage, hplaces, hdeclaring, -⟩ := h.left.exists_owner hkey
  obtain ⟨type', _, _, hmem', -, hlineage', hplaces', hdeclaring', -⟩ :=
    h.right.exists_owner hkey'
  have hname : type'.qualifiedName = type.qualifiedName := by
    simpa [hdeclaring, hdeclaring', typeName, hplaces.type?_key, hplaces'.type?_key] using howner
  rw [hname] at hlineage'
  rw [← hlineage.unique hlineage'] at hplaces'
  exact ⟨prop', type, type', hkey', hspec, ⟨_, hplaces, hplaces'⟩, hdeclaring, hdeclaring'⟩

/-- Corresponding properties link to twins, or to nothing. -/
theorem link?_cases (h : Compatible source config graph other) (hkey : graph.prop? key = some prop)
    (hkey' : other.prop? key' = some prop') (hspec : prop'.toPropSpec = prop.toPropSpec) :
    graph.link? prop = none ∧ other.link? prop' = none ∨
      ∃ type type', graph.link? prop = some type.key ∧ other.link? prop' = some type'.key ∧
        graph.Twins other type type' := by
  have hknown := h.known hkey hkey' hspec
  have hkind : prop'.kind = prop.kind := congrArg PropSpec.kind hspec
  have htype : prop'.type = prop.type := congrArg PropSpec.type hspec
  rw [htype] at hknown
  simp only [Graph.link?, h.left.keyOf?_eq, h.right.keyOf?_eq, hkind, htype]
  rcases h.find?_cases hknown with ⟨hnone, hnone'⟩ | ⟨type, type', hfound, hfound', htwins⟩
  · rw [hnone, hnone']
    cases prop.kind <;> simp
  · rw [hfound, hfound']
    cases prop.kind with
    | association => exact .inr ⟨type, type', rfl, rfl, htwins⟩
    | expression _ | sql _ => exact .inl ⟨rfl, rfl⟩
    | scalar =>
      by_cases hembeddable : type.category = .embeddable
      · have hembeddable' := htwins.category_eq.trans hembeddable
        exact .inr ⟨type, type', by simp [hembeddable], by simp [hembeddable'], htwins⟩
      · have hother : type'.category ≠ .embeddable := by rwa [htwins.category_eq]
        exact .inl ⟨by simp [hembeddable], by simp [hother]⟩

/-- Corresponding properties link to types of one name. -/
theorem map_link? (h : Compatible source config graph other) (hkey : graph.prop? key = some prop)
    (hkey' : other.prop? key' = some prop') (hspec : prop'.toPropSpec = prop.toPropSpec) :
    (other.link? prop').map other.typeName = (graph.link? prop).map graph.typeName := by
  rcases h.link?_cases hkey hkey' hspec with ⟨hnone, hnone'⟩ | ⟨type, type', hlink, hlink', htwins⟩
  · rw [hnone, hnone']
    rfl
  · rw [hlink, hlink', Option.map_some, Option.map_some, htwins.typeName_eq]

/-- What is in the view of a type has a counterpart in the view of its twin. -/
theorem mem_mergedProps (h : Compatible source config graph other)
    (htwins : graph.Twins other type type') (hmem : key ∈ graph.mergedProps type.key)
    (hkey : graph.prop? key = some prop) :
    ∃ key' prop', key' ∈ other.mergedProps type'.key ∧ other.named? key' = graph.named? key ∧
      other.prop? key' = some prop' ∧ prop'.toPropSpec = prop.toPropSpec := by
  have hnamed : graph.named? key ∈ (other.mergedProps type'.key).map other.named? := by
    rw [htwins.map_mergedProps]
    exact List.mem_map_of_mem hmem
  obtain ⟨key', hmem', hsame⟩ := List.mem_map.1 hnamed
  obtain ⟨prop', -, -, hprop', hspec, -⟩ := h.prop? hsame hkey
  exact ⟨key', prop', hmem', hsame, hprop', hspec⟩

/-- A path that leads from a type to some properties leads from its twin to their counterparts. -/
theorem navigates (h : Compatible source config graph other) {owner : TypeKey}
    {segments : List String} {keys : List PropKey}
    (hnavigates : graph.Navigates owner segments keys) (howner : owner = type.key)
    (htwins : graph.Twins other type type') :
    ∃ keys', other.Navigates type'.key segments keys' ∧
      keys'.map other.named? = keys.map graph.named? := by
  induction hnavigates generalizing type type' with
  | @last owner key prop hmem hprop =>
    subst howner
    obtain ⟨key', prop', hmem', hsame, hprop', hspec⟩ := h.mem_mergedProps htwins hmem hprop
    refine ⟨[key'], ?_, by simp [hsame]⟩
    rw [show prop.name = prop'.name from (congrArg PropSpec.name hspec).symm]
    exact .last hmem' hprop'
  | @step owner target key prop segments keys hmem hprop hlink _ ih =>
    subst howner
    obtain ⟨key', prop', hmem', hsame, hprop', hspec⟩ := h.mem_mergedProps htwins hmem hprop
    rcases h.link?_cases hprop hprop' hspec with
      ⟨hnone, -⟩ | ⟨next, next', hnext, hnext', htwins'⟩
    · rw [hnone] at hlink
      cases hlink
    · obtain ⟨keys', hkeys', hsames⟩ := ih (Option.some.inj (hlink.symm.trans hnext)) htwins'
      refine ⟨key' :: keys', ?_, by simp [hsame, hsames]⟩
      rw [show prop.name = prop'.name from (congrArg PropSpec.name hspec).symm]
      exact .step hmem' hprop' hnext' hkeys'

/-- Counterparts wait for counterparts. -/
theorem awaits (h : Compatible source config graph other) {awaited : PropKey}
    (hsame : other.named? key' = graph.named? key) (hawaits : graph.Awaits key awaited) :
    ∃ awaited', other.Awaits key' awaited' ∧ other.named? awaited' = graph.named? awaited := by
  obtain ⟨prop, target, path, keys, hprop, hpath, hnavigates, hlast, htarget, hkind⟩ := hawaits
  obtain ⟨prop', type, type', hprop', hspec, htwins, howner, howner'⟩ := h.prop? hsame hprop
  obtain ⟨keys', hnavigates', hsames⟩ := h.navigates hnavigates howner htwins
  have hlast' : keys'.getLast?.map other.named? = some (graph.named? awaited) := by
    rw [← List.getLast?_map, hsames, List.getLast?_map, hlast, Option.map_some]
  obtain ⟨awaited', hawaited', hsame'⟩ := Option.map_eq_some_iff.1 hlast'
  obtain ⟨target', -, -, htarget', hspec', -⟩ := h.prop? hsame' htarget
  refine ⟨awaited', ⟨prop', target', path, keys', hprop', ?_, ?_, hawaited', htarget', ?_⟩, hsame'⟩
  · rwa [show prop'.kind = prop.kind from congrArg PropSpec.kind hspec]
  · rwa [howner']
  · rwa [show target'.kind = target.kind from congrArg PropSpec.kind hspec']

/-- Counterparts are grounded together. -/
theorem grounded (h : Compatible source config graph other)
    (hsame : other.named? key' = graph.named? key) (hgrounded : graph.Grounded key) :
    other.Grounded key' := by
  induction hgrounded generalizing key' with
  | intro key _ ih =>
    refine .intro key' fun awaited' hawaits' => ?_
    obtain ⟨awaited, hawaits, hsame'⟩ := h.symm.awaits hsame.symm hawaits'
    exact ih awaited hawaits hsame'.symm

end Compatible

namespace PartOf

variable {part whole : Graph}

/-- A type of a part has a twin under its name. -/
theorem find? (h : PartOf source config part whole) {name : String}
    (hfound : part.find? name = some type) :
    ∃ type', whole.find? name = some type' ∧ part.Twins whole type type' := by
  obtain ⟨type', hfound'⟩ := Option.isSome_iff_exists.1 (h.names name (by simp [hfound]))
  exact ⟨type', hfound', h.twins hfound hfound'⟩

/-- Every property of a part has a counterpart. -/
theorem exists_key (h : PartOf source config part whole) (hkey : part.prop? key = some prop) :
    ∃ key', whole.named? key' = part.named? key := by
  obtain ⟨type, -, -, hmem, hdeclared, -⟩ := h.left.exists_owner hkey
  obtain ⟨type', -, htwins⟩ := h.find? (h.left.find?_qualifiedName hmem)
  have hnamed : part.named? key ∈ type'.declared.map whole.named? := by
    rw [htwins.map_declared]
    exact List.mem_map_of_mem hdeclared
  obtain ⟨key', -, hsame⟩ := List.mem_map.1 hnamed
  exact ⟨key', hsame⟩

/-- Resolution keeps parts. -/
theorem congr (h : PartOf source config part whole) {after after' : Graph}
    (hfresh : part.fresh = after.fresh) (hfresh' : whole.fresh = after'.fresh) :
    PartOf source config after after' where
  left := h.left.of_fresh_eq hfresh
  right := h.right.of_fresh_eq hfresh'
  known := by
    intro key key' prop prop' hkey hkey' hspec
    obtain ⟨earlier, hearlier, hsame⟩ := exists_prop?_of_fresh hfresh.symm hkey
    obtain ⟨earlier', hearlier', hsame'⟩ := exists_prop?_of_fresh hfresh'.symm hkey'
    have hspec₁ : earlier.fresh.toPropSpec = prop.fresh.toPropSpec := by rw [hsame]
    have hspec₂ : earlier'.fresh.toPropSpec = prop'.fresh.toPropSpec := by rw [hsame']
    have hknown := h.known hearlier hearlier' (hspec₂.trans (hspec.trans hspec₁.symm))
    rw [find?_congr hfresh, find?_congr hfresh',
      show earlier.type = prop.type from congrArg PropSpec.type hspec₁,
      show earlier'.type = prop'.type from congrArg PropSpec.type hspec₂] at hknown
    exact hknown
  names name := by
    rw [← find?_congr hfresh, ← find?_congr hfresh']
    exact h.names name

/-- Associations of a part reach entities if those of the whole do. -/
theorem associationsReachEntities (h : PartOf source config part whole)
    (hwhole : whole.AssociationsReachEntities) : part.AssociationsReachEntities := by
  intro prop hmem hassociation
  obtain ⟨key, hkey⟩ := exists_prop?_eq_some hmem
  obtain ⟨key', hsame⟩ := h.exists_key hkey
  obtain ⟨prop', -, -, hkey', hspec, -⟩ := h.prop? hsame hkey
  have hkind : prop'.kind = .association := by
    rw [← hassociation]
    exact congrArg PropSpec.kind hspec
  obtain ⟨type', htype', hlink', hentity⟩ := hwhole prop' (List.mem_of_getElem? hkey') hkind
  rcases h.link?_cases hkey hkey' hspec with ⟨-, hnone⟩ | ⟨type, found, hlink, hfound, htwins⟩
  · rw [hnone] at hlink'
    cases hlink'
  · have hcategory := htwins.category_eq
    obtain ⟨lineage, hplaces, hplaces'⟩ := htwins
    obtain rfl : found = type' := by
      obtain ⟨_, -, hplaced⟩ := h.right.placed type' htype'
      have hkeys : found.key = type'.key := Option.some.inj (hfound.symm.trans hlink')
      exact Option.some.inj (hplaces'.type?_key.symm.trans (hkeys ▸ hplaced.type?_key))
    exact ⟨type, List.mem_of_getElem? hplaces.type?_key, hlink, hcategory.symm.trans hentity⟩

/-- Paths of a part can be followed if those of the whole can. -/
theorem pathsNavigable (h : PartOf source config part whole) (hwhole : whole.PathsNavigable) :
    part.PathsNavigable := by
  intro prop hmem path hpath
  obtain ⟨key, hkey⟩ := exists_prop?_eq_some hmem
  obtain ⟨key', hsame⟩ := h.exists_key hkey
  obtain ⟨prop', type, type', hkey', hspec, htwins, howner, howner'⟩ := h.prop? hsame hkey
  rw [← show prop'.kind = prop.kind from congrArg PropSpec.kind hspec] at hpath
  obtain ⟨keys', hnavigates'⟩ := hwhole prop' (List.mem_of_getElem? hkey') path hpath
  obtain ⟨keys, hnavigates, -⟩ := h.symm.navigates hnavigates' howner' htwins.symm
  exact ⟨keys, howner ▸ hnavigates⟩

end PartOf

end Graph

end Metamodel
