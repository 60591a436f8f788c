import Metamodel.Proofs.Blueprint.Checks

/-!
# Legal declarations

The rules for declarations, stated on declarations alone: `LegalAlone` for what a declaration says
by itself, `LegalMembers` for its members, `LegalUnder` for how it fits the declarations above it.
`Header.exists_ok_iff` and `Declaration.legalMembers_iff` say that the checks of headers and
members enforce their rules and no others.
-/

namespace Metamodel

open Text

namespace Text

/-- An ASCII identifier of at most `limit` bytes. -/
structure IsIdentifier (limit : Nat) (text : String) : Prop where
  form : ∃ first rest, text.toList = first :: rest ∧ (first.isAlpha = true ∨ first = '_') ∧
    ∀ c ∈ rest, c.isAlphanum = true ∨ c = '_'
  ascii : ∀ c ∈ text.toList, c.val < 128
  short : text.utf8ByteSize ≤ limit

/-- There is no dot in an identifier. -/
theorem IsIdentifier.dot_not_mem {limit : Nat} {text : String}
    (h : IsIdentifier limit text) : '.' ∉ text.toList := by
  obtain ⟨first, rest, heq, hfirst, hrest⟩ := h.form
  rw [heq, List.mem_cons, not_or]
  constructor
  · rintro rfl
    simp at hfirst
  · intro hdot
    simpa using hrest '.' hdot

/-- Identifiers at all segments. -/
def IsDotted (limit : Nat) (text : String) : Prop :=
  ∀ segment ∈ splitDots text, IsIdentifier limit segment

end Text

namespace TypeTag

/-- The category that a tag gives. -/
def category : TypeTag → Category
  | .entity _ => .entity
  | .mappedSuperclass _ _ => .mappedSuperclass
  | .embeddable => .embeddable

/-- The name of the partition that a tag puts a type into, empty for the one without a name. -/
def partition : TypeTag → String
  | .entity scope | .mappedSuperclass scope _ => scope.getD ""
  | .embeddable => ""

/-- Whether a tag shares a type across all partitions. -/
def isShared : TypeTag → Bool
  | .mappedSuperclass _ acrossPartitions => acrossPartitions
  | .entity _ | .embeddable => false

/-- A type with a tag may extend one with another: embeddables extend embeddables, all others
mapped superclasses, and either within one partition or from a shared one. -/
structure Extends (tag ancestor : TypeTag) : Prop where
  category : tag.category = .embeddable ∧ ancestor.category = .embeddable ∨
    tag.category ≠ .embeddable ∧ ancestor.category = .mappedSuperclass
  scope : ancestor.isShared = true ∨ ancestor.partition = tag.partition

end TypeTag

/-- The type of a member does not name an entity or a mapped superclass. -/
def Member.IsValued (source : Source) (member : Member) : Prop :=
  ∀ target, source.declaration? member.type.innermost = some target →
    ∀ tag ∈ target.tags, tag = .embeddable

/-- Whether a member is tagged for a role. -/
def Member.plays (member : Member) (special : Special) : Bool :=
  member.tags.has special.tag

namespace Declaration

/-- What a declaration has to say by itself. -/
structure LegalAlone (source : Source) (declaration : Declaration) : Prop where
  package : declaration.package ≠ "" → IsDotted 64 declaration.package
  simpleName : IsIdentifier 64 declaration.simpleName
  memberNames : ∀ member ∈ declaration.members, IsIdentifier 64 member.name
  oneTag : declaration.tags.length = 1
  unshared : ∀ tag ∈ declaration.tags, tag.isShared = true → tag.partition = ""
  constraints : ∀ entry ∈ declaration.messages, IsDotted 64 entry.constraint
  messages : ∀ entry ∈ declaration.messages, isBlank entry.message = false
  constraints_nodup : (declaration.messages.map (·.constraint)).Nodup
  oneAncestor : (declaration.interfaces.filter source.isImmutable).length ≤ 1

/-- What the members of a declaration have to be: distinct in their names, and with formulas that
fit. A formula beside a body lists what it is computed from, any other has a database expression,
and no computed member is an association. -/
structure LegalMembers (source : Source) (declaration : Declaration) : Prop where
  names_nodup : (declaration.members.map (·.name)).Nodup
  bodyTags : ∀ member ∈ declaration.members, member.hasBody = true →
    ∀ tag ∈ member.tags, tag.kind = .formula
  identities : ∀ member ∈ declaration.members, member.tags.has .id = true →
    member.tags.has .formula = false
  expressions : ∀ member ∈ declaration.members, member.hasBody = true →
    ∀ formula, member.tags.formula? = some formula →
      formula.sql = "" ∧ formula.dependencies ≠ [] ∧ formula.dependencies.Nodup ∧
        ∀ dependency ∈ formula.dependencies, ∀ segment ∈ splitDots dependency,
          isBlank segment = false
  queries : ∀ member ∈ declaration.members, member.hasBody = false →
    ∀ formula, member.tags.formula? = some formula →
      formula.sql ≠ "" ∧ formula.dependencies = []
  computed : ∀ member ∈ declaration.members, member.tags.has .formula = true →
    member.IsValued source

/-- How a declaration has to fit those above it, the nearest first. -/
structure LegalUnder (source : Source) (config : Config) (declaration : Declaration)
    (above : List Declaration) : Prop where
  extends_parent : ∀ parent ∈ above.head?, ∀ tag ∈ declaration.tags, ∀ other ∈ parent.tags,
    tag.Extends other
  overrides : ∀ member ∈ declaration.members, member.isProperty = true →
    ∀ upper ∈ above, ∀ other ∈ upper.members, other.isProperty = true → other.name ≠ member.name
  specials : ∀ special,
    (((declaration :: above).flatMap (·.members)).filter (·.plays special)).length ≤ 1
  allowed : .embeddable ∈ declaration.tags →
    ∀ member ∈ declaration.members, ∀ special, member.plays special = false
  associations : ∀ member ∈ declaration.members, ∀ special, member.plays special = true →
    member.IsValued source
  identity : config.requireEntityId = true → (∃ scope, .entity scope ∈ declaration.tags) →
    ∃ upper ∈ declaration :: above, ∃ member ∈ upper.members, member.tags.has .id = true

/-- A declaration that keeps all rules under those above it. -/
structure Legal (source : Source) (config : Config) (declaration : Declaration)
    (above : List Declaration) : Prop where
  alone : declaration.LegalAlone source
  members : declaration.LegalMembers source
  under : declaration.LegalUnder source config above

end Declaration

/-! ### Names and messages -/

/-- A text has no fault exactly when it is an identifier. -/
theorem Text.identifierFault?_eq_none_iff {limit : Nat} {text : String} :
    identifierFault? limit text = none ↔ IsIdentifier limit text := by
  have hform : isIdentifierText text.toList = true ↔
      ∃ first rest, text.toList = first :: rest ∧ (first.isAlpha = true ∨ first = '_') ∧
        ∀ c ∈ rest, c.isAlphanum = true ∨ c = '_' := by
    cases text.toList with
    | nil => simp [isIdentifierText]
    | cons first rest => simp [isIdentifierText, isIdentifierStart, isIdentifierChar]
  rw [identifierFault?]
  constructor
  · intro hnone
    split at hnone
    · cases hnone
    split at hnone
    · cases hnone
    next hshort =>
    split at hnone
    · cases hnone
    next hascii =>
    split at hnone
    · cases hnone
    next hok =>
    refine ⟨hform.1 (by simpa using hok), ?_, Nat.not_lt.1 hshort⟩
    intro c hc
    have hall : text.toList.all (·.val < 128) = true := by simpa using hascii
    simpa using List.all_eq_true.1 hall c hc
  · rintro ⟨hidentifier, hascii, hshort⟩
    have hne : text ≠ "" := by
      obtain ⟨first, rest, heq, -⟩ := hidentifier
      rintro rfl
      simp at heq
    have hall : text.toList.all (·.val < 128) = true :=
      List.all_eq_true.2 fun c hc => decide_eq_true (hascii c hc)
    rw [if_neg hne, if_neg (Nat.not_lt.2 hshort), hall, hform.2 hidentifier]
    rfl

/-- A dotted name has no fault exactly when all its segments are identifiers. -/
theorem dottedFault?_eq_none_iff {text : String} :
    dottedFault? text = none ↔ IsDotted typeNameLimit text := by
  simp only [dottedFault?, List.findSome?_eq_none_iff, identifierFault?_eq_none_iff, IsDotted]

/-- The names of a declaration have no fault exactly when all of them are identifiers. -/
theorem Declaration.nameFault?_eq_none_iff {declaration : Declaration} :
    declaration.nameFault? = none ↔
      (declaration.package ≠ "" → IsDotted 64 declaration.package) ∧
        IsIdentifier 64 declaration.simpleName ∧
        ∀ member ∈ declaration.members, IsIdentifier 64 member.name := by
  have hpackage : declaration.packageFault? = none ↔
      (declaration.package ≠ "" → IsDotted 64 declaration.package) := by
    rw [packageFault?]
    split
    · next hempty => simp [hempty]
    · next hne =>
      rw [Option.map_eq_none_iff, dottedFault?_eq_none_iff]
      simp [hne, typeNameLimit]
  simp only [nameFault?, Option.or_eq_none_iff, Option.map_eq_none_iff, hpackage,
    identifierFault?_eq_none_iff, List.findSome?_eq_none_iff, and_assoc]
  rfl

/-- Messages have no fault exactly when their constraints are dotted names, new and distinct, and
none of them is blank. -/
theorem messageFault?_eq_none_iff {seen : List String} {messages : List ValidationMessage} :
    messageFault? seen messages = none ↔
      (∀ entry ∈ messages, IsDotted 64 entry.constraint) ∧
        (∀ entry ∈ messages, isBlank entry.message = false) ∧
        (messages.map (·.constraint)).Nodup ∧ ∀ entry ∈ messages, entry.constraint ∉ seen := by
  induction messages generalizing seen with
  | nil => simp [messageFault?]
  | cons entry rest ih =>
    have hblank : (if isBlank entry.message then some (Fault.blankMessage entry.constraint)
        else none) = none ↔ isBlank entry.message = false := by
      cases isBlank entry.message <;> simp
    have hrepeated : (if entry.constraint ∈ seen then
        some (Fault.repeatedConstraint entry.constraint) else none) = none ↔
          entry.constraint ∉ seen := by
      split <;> simp_all
    simp only [messageFault?, Option.or_eq_none_iff, Option.map_eq_none_iff,
      dottedFault?_eq_none_iff, hblank, hrepeated, ih, forall_eq_or_imp, List.map_cons,
      List.nodup_cons, List.mem_map, not_exists, not_and, List.mem_cons, not_or]
    constructor
    · rintro ⟨⟨⟨hdotted, hmessage⟩, hnew⟩, hdotteds, hmessages, hnodup, hrest⟩
      exact ⟨⟨hdotted, hdotteds⟩, ⟨hmessage, hmessages⟩,
        ⟨fun other hother => (hrest other hother).1, hnodup⟩, hnew,
        fun other hother => (hrest other hother).2⟩
    · rintro ⟨⟨hdotted, hdotteds⟩, ⟨hmessage, hmessages⟩, ⟨hdistinct, hnodup⟩, hnew, hrest⟩
      exact ⟨⟨⟨hdotted, hmessage⟩, hnew⟩, hdotteds, hmessages, hnodup,
        fun other hother => ⟨hdistinct other hother, hrest other hother⟩⟩

/-! ### Headers -/

/-- The scope that a tag gives. -/
def TypeTag.scope (tag : TypeTag) : Scope where
  name := if tag.partition = "" then none else some tag.partition
  acrossPartitions := tag.isShared

/-- Scopes admit each other as their tags do. -/
theorem TypeTag.admits_scope {tag ancestor : TypeTag} :
    ancestor.scope.admits tag.scope = true ↔
      ancestor.isShared = true ∨ ancestor.partition = tag.partition := by
  rw [Scope.admits, Bool.or_eq_true, decide_eq_true_iff]
  refine or_congr_right ?_
  rw [scope, scope]
  by_cases hancestor : ancestor.partition = ""
  · by_cases htag : tag.partition = ""
    · simp [hancestor, htag]
    · have hne : "" ≠ tag.partition := fun heq => htag heq.symm
      simp [hancestor, htag, hne]
  · by_cases htag : tag.partition = ""
    · simp [hancestor, htag]
    · simp [hancestor, htag]

/-- A tag extends another exactly when their categories and scopes allow it. -/
theorem TypeTag.extends_iff {tag ancestor : TypeTag} :
    tag.Extends ancestor ↔
      tag.category.accepts ancestor.category = true ∧
        ancestor.scope.admits tag.scope = true := by
  have haccepts (category ancestor : Category) : category.accepts ancestor = true ↔
      category = .embeddable ∧ ancestor = .embeddable ∨
        category ≠ .embeddable ∧ ancestor = .mappedSuperclass := by
    cases category <;> cases ancestor <;> simp [Category.accepts]
  rw [haccepts, admits_scope]
  exact ⟨fun h => ⟨h.category, h.scope⟩, fun h => ⟨h.1, h.2⟩⟩

theorem TypeTag.allowsSpecials_eq_false_iff {tag : TypeTag} :
    tag.category.allowsSpecials = false ↔ tag = .embeddable := by
  cases tag <;> simp [category, Category.allowsSpecials]

theorem TypeTag.category_eq_entity_iff {tag : TypeTag} :
    tag.category = .entity ↔ ∃ scope, tag = .entity scope := by
  cases tag <;> simp [category]

/-- A declaration is classified exactly when it has one tag, which does not both share the type
and name a partition. -/
theorem Declaration.classify_eq_ok_iff {declaration : Declaration} {category : Category}
    {scope : Scope} :
    declaration.classify = .ok (category, scope) ↔
      ∃ tag, declaration.tags = [tag] ∧ (tag.isShared = true → tag.partition = "") ∧
        tag.category = category ∧ tag.scope = scope := by
  have hlabel (label : Option String) (across : Bool) : Scope.ofLabel label across =
      ⟨if label.getD "" = "" then none else some (label.getD ""), across⟩ := by
    cases label with
    | none => rfl
    | some name => by_cases hname : name = "" <;> simp [Scope.ofLabel, Option.filter, hname]
  rw [classify]
  split
  · next htags => simp [htags]
  · next label htags =>
    simp only [htags, hlabel, List.cons.injEq, and_true, exists_eq_left', Except.ok.injEq,
      Prod.mk.injEq]
    have hunshared : (TypeTag.entity label).isShared ≠ true := by simp [TypeTag.isShared]
    exact ⟨fun heq => ⟨fun hshared => absurd hshared hunshared, heq⟩, fun heq => heq.2⟩
  · next label across htags =>
    simp only [htags, hlabel, List.cons.injEq, and_true, exists_eq_left', TypeTag.isShared,
      TypeTag.category, TypeTag.scope, TypeTag.partition]
    by_cases hname : label.getD "" = "" <;> cases across <;> simp [hname]
  · next htags =>
    simp [htags, TypeTag.isShared, TypeTag.category, TypeTag.scope, TypeTag.partition]
  · next hnil hentity hmapped hembeddable =>
    -- there are several tags, for a single one would have been met above
    simp only [reduceCtorEq, false_iff, not_exists, not_and]
    rintro (label | ⟨label, across⟩ | _) htags
    · exact absurd htags (hentity label)
    · exact absurd htags (hmapped label across)
    · exact absurd htags hembeddable

/-- A declaration has at most one ancestor, which is the immutable type that it lists. -/
theorem Declaration.ancestor?_eq_ok_iff {source : Source} {declaration : Declaration}
    {ancestor : Option String} :
    declaration.ancestor? source = .ok ancestor ↔
      (declaration.interfaces.filter source.isImmutable).length ≤ 1 ∧
        ancestor = (declaration.interfaces.filter source.isImmutable).head? := by
  rw [ancestor?, ancestors]
  cases declaration.interfaces.filter source.isImmutable with
  | nil => simp [eq_comm]
  | cons first rest =>
    cases rest with
    | nil => simp [eq_comm]
    | cons second rest => simp

/-- What a header says of its declaration. -/
theorem Header.eq_of_ok {source : Source} {declaration : Declaration} {header : Header}
    (h : Header.ofDeclaration source declaration = .ok header) :
    ∃ tag, declaration.tags = [tag] ∧ tag.category = header.category ∧
      tag.scope = header.scope ∧
      header.ancestor = (declaration.interfaces.filter source.isImmutable).head? := by
  obtain ⟨-, hclassify, -, -, hancestor⟩ := Header.ofDeclaration_eq_ok_iff.1 h
  obtain ⟨tag, htags, -, hcategory, hscope⟩ := Declaration.classify_eq_ok_iff.1 hclassify
  exact ⟨tag, htags, hcategory, hscope, (Declaration.ancestor?_eq_ok_iff.1 hancestor).2⟩

/-- The ancestor of a declaration is one of its interfaces. -/
theorem Header.mem_interfaces {source : Source} {declaration : Declaration} {header : Header}
    {ancestor : String} (h : Header.ofDeclaration source declaration = .ok header)
    (hancestor : header.ancestor = some ancestor) : ancestor ∈ declaration.interfaces := by
  obtain ⟨-, -, -, -, hhead⟩ := Header.eq_of_ok h
  exact (List.mem_filter.1 (List.mem_of_head? (hhead.symm.trans hancestor))).1

/-- A declaration has a header exactly when it keeps the rules for what it says by itself. -/
theorem Header.exists_ok_iff {source : Source} {declaration : Declaration} :
    (∃ header, Header.ofDeclaration source declaration = .ok header) ↔
      declaration.LegalAlone source := by
  simp only [Header.ofDeclaration_eq_ok_iff, Declaration.nameFault?_eq_none_iff,
    Declaration.classify_eq_ok_iff, messageFault?_eq_none_iff, Declaration.ancestor?_eq_ok_iff]
  constructor
  · rintro ⟨header, ⟨hpackage, hsimpleName, hmembers⟩, ⟨tag, htags, hunshared, -⟩,
      ⟨hconstraints, hmessages, hnodup, -⟩, -, hancestors, -⟩
    refine ⟨hpackage, hsimpleName, hmembers, ?_, ?_, hconstraints, hmessages, hnodup, hancestors⟩
    · rw [htags, List.length_singleton]
    · rw [htags]
      simpa using hunshared
  · intro h
    obtain ⟨tag, htags⟩ := List.length_eq_one_iff.1 h.oneTag
    refine ⟨⟨tag.category, tag.scope, declaration.sortedMessages, _⟩,
      ⟨h.package, h.simpleName, h.memberNames⟩, ⟨tag, htags, ?_, rfl, rfl⟩,
      ⟨h.constraints, h.messages, h.constraints_nodup, by simp⟩, rfl, h.oneAncestor, rfl⟩
    exact h.unshared tag (by simp [htags])

/-! ### Members -/

/-- A member has no tag out of place exactly when it has no body or formulas only. -/
theorem Member.bodyTag?_eq_none_iff {member : Member} :
    member.bodyTag? = none ↔
      (member.hasBody = true → ∀ tag ∈ member.tags, tag.kind = .formula) := by
  rw [bodyTag?, TagSet.kinds]
  cases member.hasBody <;> simp [List.find?_eq_none]

/-- Dependencies have no fault exactly when none has a blank segment and they are new and
distinct. -/
theorem dependencyFault?_eq_none_iff {seen dependencies : List String} :
    dependencyFault? seen dependencies = none ↔
      dependencies.Nodup ∧ (∀ dependency ∈ dependencies, dependency ∉ seen) ∧
        ∀ dependency ∈ dependencies, ∀ segment ∈ splitDots dependency,
          isBlank segment = false := by
  induction dependencies generalizing seen with
  | nil => simp [dependencyFault?]
  | cons dependency rest ih =>
    rw [dependencyFault?]
    split
    · next hblank =>
      obtain ⟨segment, hsegment, hblank⟩ := List.any_eq_true.1 hblank
      simp only [reduceCtorEq, false_iff]
      rintro ⟨-, -, hall⟩
      rw [hall dependency (by simp) segment hsegment] at hblank
      cases hblank
    · next hblank =>
      split
      · next hseen =>
        simp only [reduceCtorEq, false_iff]
        rintro ⟨-, hnew, -⟩
        exact hnew dependency (by simp) hseen
      · next hseen =>
        have hfirst : ∀ segment ∈ splitDots dependency, isBlank segment = false := by
          simpa using hblank
        simp only [ih, List.nodup_cons, List.mem_cons, not_or, forall_eq_or_imp]
        constructor
        · rintro ⟨hnodup, hnew, hall⟩
          exact ⟨⟨fun hmem => (hnew dependency hmem).1 rfl, hnodup⟩,
            ⟨hseen, fun other hother => (hnew other hother).2⟩, hfirst, hall⟩
        · rintro ⟨⟨hdistinct, hnodup⟩, ⟨-, hnew⟩, -, hall⟩
          refine ⟨hnodup, fun other hother => ⟨?_, hnew other hother⟩, hall⟩
          rintro rfl
          exact hdistinct hother

/-- The formula of a member has no fault exactly when it fits: an expression beside a body, a
database expression for any other member but an identity. -/
theorem Member.formulaFault?_eq_none_iff {member : Member} :
    member.formulaFault? = none ↔
      ∀ formula, member.tags.formula? = some formula →
        if member.hasBody then
          formula.sql = "" ∧ formula.dependencies ≠ [] ∧ formula.dependencies.Nodup ∧
            ∀ dependency ∈ formula.dependencies, ∀ segment ∈ splitDots dependency,
              isBlank segment = false
        else member.tags.has .id = false ∧ formula.sql ≠ "" ∧ formula.dependencies = [] := by
  rw [formulaFault?]
  cases member.tags.formula? with
  | none => simp
  | some formula =>
    have hexpression : formula.expressionFault? = none ↔ formula.sql = "" ∧
        formula.dependencies ≠ [] ∧ dependencyFault? [] formula.dependencies = none := by
      rw [Formula.expressionFault?, Formula.hasSql, Formula.hasDependencies]
      by_cases hsql : formula.sql = "" <;> by_cases hnone : formula.dependencies = [] <;>
        simp [hsql, hnone]
    have hsqlFault : formula.sqlFault? = none ↔ formula.sql ≠ "" ∧
        formula.dependencies = [] := by
      rw [Formula.sqlFault?, Formula.hasSql, Formula.hasDependencies]
      by_cases hsql : formula.sql = "" <;> by_cases hnone : formula.dependencies = [] <;>
        simp [hsql, hnone]
    simp only [Option.some.injEq, forall_eq']
    cases member.hasBody with
    | true =>
      simp [hexpression, dependencyFault?_eq_none_iff]
    | false =>
      cases member.tags.has .id <;> simp [hsqlFault]

/-- A member refers to no target of associations exactly when its type names none. -/
theorem Member.refersToTarget_eq_false_iff {source : Source} {member : Member} :
    member.refersToTarget source = false ↔ member.IsValued source := by
  have htag (tag : TypeTag) : tag.isAssociationTarget = false ↔ tag = .embeddable := by
    cases tag <;> simp [TypeTag.isAssociationTarget]
  rw [refersToTarget, referent?, IsValued]
  cases source.declaration? member.type.innermost with
  | none => simp
  | some target => simp [Declaration.isAssociationTarget, htag]

/-- A member is computed exactly when it is tagged with a formula. -/
theorem Member.isComputed_kind {source : Source} {member : Member} :
    (member.kind source).isComputed = member.tags.has .formula := by
  rw [← TagSet.isSome_formula?, kind]
  cases member.tags.formula? with
  | some formula => cases member.hasBody <;> rfl
  | none => cases member.refersToTarget source <;> rfl

/-- A member becomes an association exactly when it is not computed and its type names an entity
or a mapped superclass. -/
theorem Member.isAssociation_kind_eq_false_iff {source : Source} {member : Member}
    (hcomputed : member.tags.has .formula = true → member.IsValued source) :
    (member.kind source).isAssociation = false ↔ member.IsValued source := by
  rw [← refersToTarget_eq_false_iff] at hcomputed ⊢
  rw [← TagSet.isSome_formula?] at hcomputed
  rw [kind]
  cases hformula : member.tags.formula? with
  | some formula =>
    rw [hcomputed (by simp [hformula])]
    cases member.hasBody <;> simp [PropertyKind.isAssociation]
  | none => cases member.refersToTarget source <;> simp [PropertyKind.isAssociation]

namespace Declaration

variable {source : Source} {declaration : Declaration}

/-- The members that become properties are those without a body and those with a formula. -/
theorem mem_propertyMembers {member : Member} :
    member ∈ declaration.propertyMembers ↔
      member ∈ declaration.members ∧ member.isProperty = true := by
  rw [declaration.propertyMembers_perm.mem_iff, List.mem_filter]

/-- The names of properties are those of the members that become properties. -/
theorem mem_names_of_propSpecs {last : Nat} {props : List PropSpec}
    (h : declaration.propSpecs source last = .ok props) {name : String} :
    name ∈ props.map (·.name) ↔
      ∃ member ∈ declaration.members, member.isProperty = true ∧ member.name = name := by
  rw [names_of_propSpecs h, List.mem_map]
  simp only [mem_propertyMembers, and_assoc]

/-- Members become properties exactly when all their formulas fit and none that is computed would
be an association. -/
theorem exists_propSpecs_iff {last : Nat} :
    (∃ props, declaration.propSpecs source last = .ok props) ↔
      ∀ member ∈ declaration.members, member.isProperty = true →
        member.formulaFault? = none ∧
          (member.tags.has .formula = true → member.IsValued source) := by
  have hspec (member : Member) (id : Nat) :
      (∃ spec, member.spec source declaration.qualifiedName id = .ok spec) ↔
        member.formulaFault? = none ∧
          (member.tags.has .formula = true → member.IsValued source) := by
    simp only [Member.spec_eq_ok_iff, Member.isComputed_kind, exists_and_left, exists_eq,
      and_true, ← Member.refersToTarget_eq_false_iff, not_and, Bool.not_eq_true]
  rw [propSpecs, Except.exists_mapM_ok_iff]
  constructor
  · intro h member hmember hproperty
    obtain ⟨id, hentry⟩ :=
      List.exists_mem_zipIdx_of_mem (mem_propertyMembers.2 ⟨hmember, hproperty⟩) (last + 1)
    exact (hspec member id).1 (h _ hentry)
  · rintro h ⟨member, id⟩ hentry
    obtain ⟨hmember, hproperty⟩ := mem_propertyMembers.1 (List.fst_mem_of_mem_zipIdx hentry)
    exact (hspec member id).2 (h member hmember hproperty)

/-- Members are accepted exactly when they keep the rules for members. -/
theorem legalMembers_iff {last : Nat} :
    (memberViolation? declaration.qualifiedName [] declaration.members = none ∧
      ∃ props, declaration.propSpecs source last = .ok props) ↔
      declaration.LegalMembers source := by
  have hproperty {member : Member} (h : member.hasBody = false ∨
      member.tags.has .formula = true) : member.isProperty = true := by
    rcases h with h | h <;> simp [Member.isProperty, h]
  have hhas {member : Member} {formula : Formula}
      (hformula : member.tags.formula? = some formula) : member.tags.has .formula = true := by
    rw [← TagSet.isSome_formula?, hformula]
    rfl
  rw [memberViolation?_eq_none_iff, exists_propSpecs_iff]
  simp only [Member.bodyTag?_eq_none_iff, Member.formulaFault?_eq_none_iff]
  constructor
  · rintro ⟨⟨hnodup, -, hbody⟩, hmembers⟩
    refine ⟨hnodup, hbody, ?_, ?_, ?_, ?_⟩
    · intro member hmember hid
      cases hasBody : member.hasBody with
      | true =>
        obtain ⟨tag, htag, hkind⟩ := List.any_eq_true.1 hid
        rw [hbody member hmember hasBody tag htag] at hkind
        cases hkind
      | false =>
        -- a formula would have to be a database expression, which identities do not have
        rw [← TagSet.isSome_formula?]
        cases hformula : member.tags.formula? with
        | none => rfl
        | some formula =>
          have hfit := (hmembers member hmember (hproperty (.inl hasBody))).1 formula hformula
          simp [hasBody, hid] at hfit
    · intro member hmember hasBody formula hformula
      simpa [hasBody] using
        (hmembers member hmember (hproperty (.inr (hhas hformula)))).1 formula hformula
    · intro member hmember hasBody formula hformula
      have hfit := (hmembers member hmember (hproperty (.inl hasBody))).1 formula hformula
      simp only [hasBody, Bool.false_eq_true, ↓reduceIte] at hfit
      exact hfit.2
    · intro member hmember hformula
      exact (hmembers member hmember (hproperty (.inr hformula))).2 hformula
  · intro h
    refine ⟨⟨h.names_nodup, by simp, h.bodyTags⟩, fun member hmember _ => ⟨?_, ?_⟩⟩
    · intro formula hformula
      cases hasBody : member.hasBody with
      | true => simpa using h.expressions member hmember hasBody formula hformula
      | false =>
        have hid : member.tags.has .id = false := by
          rw [Bool.eq_false_iff]
          intro hid
          have hnone := h.identities member hmember hid
          rw [hhas hformula] at hnone
          cases hnone
        simpa [hid] using h.queries member hmember hasBody formula hformula
    · exact h.computed member hmember

end Declaration

end Metamodel
