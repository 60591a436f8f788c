import Metamodel.Proofs.Graph.Whole

/-!
# Members and properties

Three passes over the members of a declaration collect its properties. Together they are one stable
sort: `Declaration.Sorts` says what becomes a property and in which order, without the passes, and
`Graph.Enumerates` that the own properties of a type are such members, numbered one after another.
-/

namespace Metamodel

/-! ### The order of members -/

/-- Where a member stands among those of its declaration that become properties: identities come
first, then expressions, then all others. -/
def Member.rank (member : Member) : Nat :=
  if member.isIdentity then 0 else if member.isExpression then 1 else 2

/-- There are three ranks. -/
theorem Member.rank_lt (member : Member) : member.rank < 3 := by
  rw [rank]
  split
  · decide
  · split <;> decide

namespace Declaration

/-- These are the members of a declaration that become properties, sorted by rank; those of one
rank stand as they are declared. -/
structure Sorts (declaration : Declaration) (members : List Member) : Prop where
  perm : members.Perm (declaration.members.filter Member.isProperty)
  sorted : members.Pairwise fun member next => member.rank ≤ next.rank
  stable : ∀ rank, members.filter (·.rank = rank) =
    (declaration.members.filter Member.isProperty).filter (·.rank = rank)

/-- Each of the three passes collects the members of one rank. -/
theorem propertyMembers_eq_flatMap (declaration : Declaration) :
    declaration.propertyMembers =
      [0, 1, 2].flatMap fun rank =>
        (declaration.members.filter Member.isProperty).filter (·.rank = rank) := by
  have hpass (collects : Member → Bool) (rank : Nat)
      (h : ∀ member, collects member = (member.isProperty && decide (member.rank = rank))) :
      declaration.members.filter collects =
        (declaration.members.filter Member.isProperty).filter (·.rank = rank) := by
    rw [List.filter_filter]
    exact List.filter_congr fun member _ => by rw [h, Bool.and_comm]
  rw [propertyMembers, hpass Member.isIdentity 0, hpass Member.isExpression 1,
    hpass Member.isPlain 2]
  · simp
  all_goals
    intro member
    cases hbody : member.hasBody <;> cases hid : member.tags.has .id <;>
      cases hformula : member.tags.has .formula <;>
      simp [Member.rank, Member.isProperty, Member.isIdentity, Member.isExpression,
        Member.isPlain, hbody, hid, hformula]

/-- The passes together sort the members. -/
theorem sorts_propertyMembers (declaration : Declaration) :
    declaration.Sorts declaration.propertyMembers where
  perm := declaration.propertyMembers_perm
  sorted := by
    rw [propertyMembers_eq_flatMap, List.pairwise_flatMap]
    constructor
    · intro rank _
      refine List.pairwise_of_forall_mem_list fun member hmember next hnext => ?_
      simp only [List.mem_filter, decide_eq_true_eq] at hmember hnext
      exact (hmember.2.trans hnext.2.symm).le
    · refine List.Pairwise.imp ?_ (show [0, 1, 2].Pairwise (· ≤ ·) by decide)
      intro rank other hle member hmember next hnext
      simp only [List.mem_filter, decide_eq_true_eq] at hmember hnext
      rwa [hmember.2, hnext.2]
  stable := by
    intro rank
    -- a second test for a rank keeps all that the pass for this rank collects, and nothing else
    have hpass (found : Nat) :
        ((declaration.members.filter Member.isProperty).filter (·.rank = found)).filter
            (·.rank = rank) =
          if found = rank then
            (declaration.members.filter Member.isProperty).filter (·.rank = rank)
          else [] := by
      split
      · next h => rw [h, List.filter_filter]; simp only [Bool.and_self]
      · next h => rw [List.filter_filter, List.filter_eq_nil_iff]; grind
    rw [propertyMembers_eq_flatMap, List.filter_flatMap]
    simp only [hpass]
    match rank with
    | 0 | 1 | 2 => simp
    | rank + 3 =>
      refine (List.filter_eq_nil_iff.2 fun member _ => ?_).symm
      have hlt := member.rank_lt
      simp only [decide_eq_true_eq]
      omega

end Declaration

namespace Graph

variable {source : Source} {config : Config} {graph : Graph} {type : TypeNode}

/-- The own properties of a type are given members, one by one, with their names, types and tags.
They are numbered without gaps, after all inherited properties. -/
structure Enumerates (graph : Graph) (type : TypeNode) (members : List Member) : Prop where
  length_eq : type.declared.length = members.length
  prop : ∀ index key member, type.declared[index]? = some key → members[index]? = some member →
    ∃ prop, graph.prop? key = some prop ∧ prop.declaringType = type.key ∧
      prop.id = graph.inheritedCount type + 1 + index ∧
      prop.name = member.name ∧ prop.type = member.type ∧ prop.tags = member.tags

/-- The own properties of a type have the names of their members. -/
theorem Enumerates.map_propName {members : List Member} (h : graph.Enumerates type members) :
    type.declared.map (fun key => (graph.label key).name) = members.map (·.name) := by
  refine List.ext_getElem (by simp [h.length_eq]) fun index hkey hmember => ?_
  rw [List.length_map] at hkey hmember
  obtain ⟨prop, hprop, -, -, hname, -⟩ := h.prop index _ _ (List.getElem?_eq_getElem hkey)
    (List.getElem?_eq_getElem hmember)
  rw [List.getElem_map, List.getElem_map, ← hname, name_label hprop]

/-- The own properties of a registered type are the members of its declaration in the order in
which these are collected. -/
theorem Realizes.exists_enumerates (h : graph.Realizes source config) (htype : type ∈ graph.types) :
    ∃ declaration, source.declaration? type.qualifiedName = some declaration ∧
      graph.Enumerates type declaration.propertyMembers := by
  obtain ⟨declaration, hdeclared, hmade⟩ := h.exists_made htype
  obtain ⟨hlength, hget⟩ := List.forall₂_iff_get.1 hmade
  rw [List.length_zipIdx] at hlength
  refine ⟨declaration, hdeclared, hlength, fun index key member hkey hmember => ?_⟩
  obtain ⟨hindex, rfl⟩ := List.getElem?_eq_some_iff.1 hkey
  obtain ⟨hindex', rfl⟩ := List.getElem?_eq_some_iff.1 hmember
  obtain ⟨prop, hprop, howner, hspec⟩ := hget index hindex (by simpa using hindex')
  simp only [List.get_eq_getElem, List.getElem_zipIdx] at hprop hspec
  exact ⟨prop, hprop, howner, congrArg PropSpec.id hspec, congrArg PropSpec.name hspec,
    congrArg PropSpec.type hspec, congrArg PropSpec.tags hspec⟩

end Graph

/-- In a reachable registry the own properties of every type are exactly the members of its
declaration that have no body or a formula: none is lost and none is there twice. They are sorted
by rank and otherwise as declared, their numbers go on from those of the inherited properties
without gaps, and each has the name, the type and the tags of its member. -/
theorem Reachable.enumeratesMembers {source : Source} {config : Config} {registry : Registry}
    (h : Reachable source config registry) {type : TypeNode}
    (htype : type ∈ registry.graph.types) :
    ∃ declaration members, source.declaration? type.qualifiedName = some declaration ∧
      declaration.Sorts members ∧ registry.graph.Enumerates type members ∧
      (type.declared.map fun key => (registry.graph.label key).name).Perm
        ((declaration.members.filter Member.isProperty).map (·.name)) := by
  obtain ⟨declaration, hdeclared, hmembers⟩ := h.sound.realizes.exists_enumerates htype
  refine ⟨declaration, _, hdeclared, declaration.sorts_propertyMembers, hmembers, ?_⟩
  rw [hmembers.map_propName]
  exact declaration.propertyMembers_perm.map _

/-- Invoices below entries, with two expressions, a helper and an identity that comes last. -/
def invoices : Source where
  declarations := {
    toList := [
      { simpleName := "Invoice"
        tags := [.entity none]
        interfaces := ["Entry"]
        members := [
          { name := "net", type := .named "int" },
          { name := "label", type := .named "string", hasBody := true
            tags := [.formula { dependencies := ["title"] }] },
          { name := "summary", type := .named "string", hasBody := true },
          { name := "gross", type := .named "int", tags := [.formula { sql := "net * 2" }] },
          { name := "heading", type := .named "string", hasBody := true
            tags := [.formula { dependencies := ["label"] }] },
          { name := "number", type := .named "int", tags := [.id] }] },
      { simpleName := "Entry"
        tags := [.mappedSuperclass none false]
        members := [{ name := "title", type := .named "string" }] }]
    names_nodup := by decide }

theorem Reachable.enumeratesMembers_invoices :
    ∃ registry, Reachable invoices {} registry ∧
      registry.graph.props.map (fun prop => (prop.id, prop.name)) =
        [(1, "title"), (2, "number"), (3, "label"), (4, "heading"), (5, "net"), (6, "gross")] ∧
      ∃ invoice ∈ registry.graph.types, invoice.qualifiedName = "Invoice" ∧
        ∃ declaration members, invoices.declaration? "Invoice" = some declaration ∧
          declaration.Sorts members ∧ registry.graph.Enumerates invoice members := by
  have hreachable : LeadsTo invoices {} {} _ := .step (.resolve "Invoice") .refl
  refine ⟨_, hreachable, by decide +kernel, ?_⟩
  have hnames : "Invoice" ∈ (Command.run invoices {} {}
      (.resolve "Invoice")).registry.graph.types.map (·.qualifiedName) := by
    decide +kernel
  obtain ⟨invoice, hinvoice, hname⟩ := List.mem_map.1 hnames
  obtain ⟨declaration, members, hdeclared, hsorts, hmembers, -⟩ :=
    Reachable.enumeratesMembers hreachable hinvoice
  exact ⟨invoice, hinvoice, hname, declaration, members, hname ▸ hdeclared, hsorts, hmembers⟩

end Metamodel
