import Metamodel.Proofs.ClassNames

/-!
# Class names in code

A class name goes into generated code as a path, which `ClassName.render?` hands to a writer
segment by segment. The writer may give up on a segment, and empty segments of the package, which
the canonical name has as well, are passed over. Neither happens to a name whose parts are
identifiers, if the writer does three things: it takes identifiers, it writes them as they are, and
it sets tokens apart by blanks. Then the path is the canonical name with other separators
(`ClassName.IsSpelled.render?_eq`). Identifiers remain identifiers with a fragment at their end, so
all names that are derived for a registered type are of this kind (`Reachable.rendersNames`).
-/

namespace Metamodel

open Text

namespace Text

/-- The text with a separator in place of every dot. -/
def replaceDots (separator text : String) : String :=
  String.ofList (text.toList.flatMap fun c => if c = '.' then separator.toList else [c])

/-- To join the segments by a separator is to replace the dots. -/
theorem intercalate_splitDots (separator text : String) :
    separator.intercalate (splitDots text) = replaceDots separator text := by
  have hruns (cs : List Char) : separator.toList.intercalate (dotSegments cs) =
      cs.flatMap fun c => if c = '.' then separator.toList else [c] := by
    induction cs with
    | nil => simp [dotSegments]
    | cons c cs ih =>
      rw [dotSegments, List.flatMap_cons, ← ih]
      cases hcut : dotSegments cs with
      | nil => exact absurd hcut (dotSegments_ne_nil cs)
      | cons run runs =>
        by_cases hdot : c = '.'
        · simp [hdot, List.intercalate_cons_cons]
        · cases runs <;> simp [hdot, List.intercalate_cons_cons]
  have hid : String.toList ∘ String.ofList = id := by funext cs; simp
  apply String.toList_injective
  rw [String.toList_intercalate, splitDots, List.map_map, hid, List.map_id, hruns, replaceDots,
    String.toList_ofList]

example : replaceDots " :: " "_.r._9.Producer" = "_ :: r :: _9 :: Producer" := by decide

/-- To put a text between the segments and join by a separator is to join by all three. -/
theorem intercalate_intersperse (separator text : String) (segments : List String) :
    separator.intercalate (segments.intersperse text) =
      (separator ++ text ++ separator).intercalate segments := by
  induction segments with
  | nil => rfl
  | cons segment rest ih =>
    cases rest with
    | nil => rfl
    | cons next rest =>
      rw [List.intersperse_cons_cons, String.intercalate_cons_cons (l := rest), ← ih]
      cases rest <;> simp [String.intercalate_cons_cons, String.append_assoc]

/-! ### Identifiers -/

theorem isIdentifierChar_of_start {c : Char} (h : isIdentifierStart c = true) :
    isIdentifierChar c = true := by
  simp only [isIdentifierStart, isIdentifierChar, Char.isAlphanum, Bool.or_eq_true] at h ⊢
  exact h.imp_left .inl

/-- All characters of an identifier may follow in one. -/
theorem isIdentifierChar_of_mem {cs : List Char} (h : isIdentifierText cs = true) {c : Char}
    (hc : c ∈ cs) : isIdentifierChar c = true := by
  cases cs with
  | nil => cases hc
  | cons first rest =>
    rw [isIdentifierText, Bool.and_eq_true, List.all_eq_true] at h
    rcases List.mem_cons.1 hc with rfl | hc
    · exact isIdentifierChar_of_start h.1
    · exact h.2 c hc

/-- So an identifier may be longer. -/
theorem isIdentifierText_append {cs suffix : List Char} (h : isIdentifierText cs = true)
    (hsuffix : ∀ c ∈ suffix, isIdentifierChar c = true) :
    isIdentifierText (cs ++ suffix) = true := by
  cases cs with
  | nil => cases h
  | cons first rest =>
    simp only [isIdentifierText, List.cons_append, Bool.and_eq_true, List.all_eq_true,
      List.mem_append] at h ⊢
    exact ⟨h.1, fun c hc => hc.elim (h.2 c) (hsuffix c)⟩

theorem IsIdentifier.isIdentifierText {limit : Nat} {text : String}
    (h : IsIdentifier limit text) : isIdentifierText text.toList = true := by
  obtain ⟨first, rest, heq, hfirst, hrest⟩ := h.form
  rw [heq]
  simpa [Text.isIdentifierText, isIdentifierStart, isIdentifierChar] using ⟨hfirst, hrest⟩

end Text

namespace CodeWriter

variable {Ident : Type} {writer : CodeWriter Ident}

/-- The text of a token by itself. -/
def tokenText (writer : CodeWriter Ident) : PathToken Ident → String
  | .ident ident => writer.text ident
  | .separator => "::"

/-- The writer makes an identifier of every text that is one in ASCII, the lone underscore
included. -/
def AcceptsIdentifiers (writer : CodeWriter Ident) : Prop :=
  ∀ text, isIdentifierText text.toList = true → ∃ ident, writer.ident? text = some ident

/-- The writer writes such an identifier as the text that it was made of. -/
def KeepsIdentifiers (writer : CodeWriter Ident) : Prop :=
  ∀ text ident, isIdentifierText text.toList = true → writer.ident? text = some ident →
    writer.text ident = text

/-- The writer writes tokens in order, with a blank between one and the next. -/
def SetsTokensApart (writer : CodeWriter Ident) : Prop :=
  ∀ tokens, writer.print tokens = " ".intercalate (tokens.map writer.tokenText)

/-- So all segments of a path of identifiers become identifiers with the same texts. -/
theorem exists_mapM_ident? (haccepts : writer.AcceptsIdentifiers)
    (hkeeps : writer.KeepsIdentifiers) {segments : List String}
    (h : ∀ segment ∈ segments, isIdentifierText segment.toList = true) :
    ∃ idents, segments.mapM writer.ident? = some idents ∧ idents.map writer.text = segments := by
  induction segments with
  | nil => exact ⟨[], rfl, rfl⟩
  | cons segment rest ih =>
    obtain ⟨hsegment, hrest⟩ := List.forall_mem_cons.1 h
    obtain ⟨ident, hident⟩ := haccepts segment hsegment
    obtain ⟨idents, hidents, htexts⟩ := ih hrest
    refine ⟨ident :: idents, ?_, ?_⟩
    · rw [List.mapM_cons, hident, hidents]
      rfl
    · rw [List.map_cons, hkeeps segment ident hsegment hident, htexts]

/-- The text of a path is that of its identifiers with the separator between them. -/
theorem print_intersperse (hapart : writer.SetsTokensApart) (idents : List Ident) :
    writer.print ((idents.map PathToken.ident).intersperse .separator) =
      " :: ".intercalate (idents.map writer.text) := by
  have htexts : ((idents.map PathToken.ident).intersperse .separator).map writer.tokenText =
      (idents.map writer.text).intersperse "::" := by
    induction idents with
    | nil => rfl
    | cons ident rest ih =>
      cases rest with
      | nil => rfl
      | cons next rest =>
        simp only [List.map_cons, List.intersperse_cons_cons] at ih ⊢
        rw [ih]
        rfl
  rw [hapart, htexts, intercalate_intersperse]
  rfl

end CodeWriter

namespace ClassName

/-- A class name is spelled with identifiers, in its package and in itself. -/
structure IsSpelled (name : ClassName) : Prop where
  package : name.package ≠ "" →
    ∀ segment ∈ splitDots name.package, isIdentifierText segment.toList = true
  simpleNames : ∀ simpleName ∈ name.simpleNames, isIdentifierText simpleName.toList = true
  simpleNames_ne_nil : name.simpleNames ≠ []

variable {name : ClassName}

/-- Its path has all segments of its canonical name. -/
theorem IsSpelled.pathSegments_eq (h : name.IsSpelled) :
    name.pathSegments = splitDots name.canonicalName := by
  have hsimple : splitDots (joinDots name.simpleNames) = name.simpleNames := by
    refine splitDots_joinDots h.simpleNames_ne_nil fun simpleName hmem hdot => ?_
    have hchar := isIdentifierChar_of_mem (h.simpleNames simpleName hmem) hdot
    cases hchar
  rw [pathSegments, canonicalName, Declaration.qualify]
  split
  · next hempty =>
    rw [hsimple, hempty]
    simp [splitDots, dotSegments]
  · next hne =>
    rw [splitDots_append, hsimple, List.filter_eq_self.2]
    intro segment hsegment
    have hspelled := h.package hne segment hsegment
    simp only [decide_eq_true_eq]
    rintro rfl
    cases hspelled

/-- All segments of its path are identifiers. -/
theorem IsSpelled.isIdentifierText_of_mem (h : name.IsSpelled) :
    ∀ segment ∈ name.pathSegments, isIdentifierText segment.toList = true := by
  intro segment hsegment
  rw [pathSegments, List.mem_append, List.mem_filter, decide_eq_true_eq] at hsegment
  rcases hsegment with ⟨hsegment, hne⟩ | hsegment
  · refine h.package ?_ segment hsegment
    rintro hempty
    rw [hempty] at hsegment
    simp [splitDots, dotSegments, hne] at hsegment
  · exact h.simpleNames segment hsegment

/-- It is written as its canonical name with other separators. -/
theorem IsSpelled.render?_eq {Ident : Type} {writer : CodeWriter Ident}
    (haccepts : writer.AcceptsIdentifiers) (hkeeps : writer.KeepsIdentifiers)
    (hapart : writer.SetsTokensApart) (h : name.IsSpelled) :
    name.render? writer = some (replaceDots " :: " name.canonicalName) := by
  obtain ⟨idents, hidents, htexts⟩ :=
    CodeWriter.exists_mapM_ident? haccepts hkeeps h.isIdentifierText_of_mem
  rw [render?, pathTokens?, hidents, ← intercalate_splitDots, ← h.pathSegments_eq, ← htexts,
    ← CodeWriter.print_intersperse hapart]
  rfl

end ClassName

/-- The names of all classes for a type are spelled with identifiers, if the type's own are. -/
theorem DerivedNames.isSpelled_nameFor {package simpleName : String} {naming : Naming}
    (hnaming : ∀ role, IsFragment (naming.suffix role))
    (hpackage : package ≠ "" → IsDotted 64 package) (hsimpleName : IsIdentifier 64 simpleName)
    (role : ClassRole) :
    (nameFor package simpleName naming role).IsSpelled := by
  have hinner : ∀ name ∈ role.inner, isIdentifierText name.toList = true := by
    cases role <;> decide
  have houter : isIdentifierText (simpleName ++ role.suffix naming).toList = true := by
    rw [String.toList_append]
    refine isIdentifierText_append hsimpleName.isIdentifierText fun c hc => ?_
    by_cases hvalue : role = .value
    · simp [hvalue, ClassRole.suffix] at hc
    · simpa [isIdentifierChar] using (ClassRole.isFragment_suffix hnaming hvalue).chars c hc
  rw [nameFor_eq]
  exact ⟨fun hne segment hsegment => (hpackage hne segment hsegment).isIdentifierText,
    List.forall_mem_cons.2 ⟨houter, hinner⟩, List.cons_ne_nil _ _⟩

/-- Under a naming that is fit, the name of every class of a registered type can be written as a
path in generated code, with whatever writes identifiers as they are and sets tokens apart. The
path is the canonical name with its dots replaced, segment by segment, so none is left out. -/
theorem Reachable.rendersNames {Ident : Type} {writer : CodeWriter Ident}
    (haccepts : writer.AcceptsIdentifiers) (hkeeps : writer.KeepsIdentifiers)
    (hapart : writer.SetsTokensApart) {source : Source} {config : Config} {registry : Registry}
    (h : Reachable source config registry) (hnaming : config.naming.fault? = none) :
    ∀ type ∈ registry.graph.types, ∀ role name, type.names.get? role = some name →
      name.render? writer = some (Text.replaceDots " :: " name.canonicalName) ∧
        name.pathSegments = Text.splitDots name.canonicalName := by
  intro type htype role name hname
  obtain ⟨declaration, -, hlegal, hnames⟩ := h.sound.realizes.exists_names htype
  rw [hnames, DerivedNames.get?_derive_eq_some_iff] at hname
  obtain ⟨-, rfl⟩ := hname
  have hspelled := DerivedNames.isSpelled_nameFor (Naming.fault?_eq_none_iff.1 hnaming)
    hlegal.package hlegal.simpleName role
  exact ⟨hspelled.render?_eq haccepts hkeeps hapart, hspelled.pathSegments_eq⟩

/-! ### Words -/

namespace Text

/-- The characters of identifiers are ASCII. -/
theorem toNat_lt_of_isIdentifierChar {c : Char} (h : isIdentifierChar c = true) :
    c.toNat < 0x80 := by
  rw [isIdentifierChar, Bool.or_eq_true, decide_eq_true_eq] at h
  rcases h with h | rfl
  · -- upper case, lower case and digits
    change ((decide (65 ≤ c.val ∧ c.val ≤ 90) || (97 ≤ c.val && c.val ≤ 122)) ||
      (48 ≤ c.val && c.val ≤ 57)) = true at h
    simp only [Bool.or_eq_true, Bool.and_eq_true, decide_eq_true_eq, UInt32.le_iff_toNat_le,
      UInt32.reduceToNat] at h
    show c.val.toNat < 0x80
    omega
  · decide

/-- Of ASCII, words have the characters of identifiers. -/
theorem isWord_of_isIdentifierText {cs : List Char} (h : isIdentifierText cs = true) :
    isWord cs = true := by
  cases cs with
  | nil => cases h
  | cons first rest =>
    have hascii (c : Char) (hc : c ∈ first :: rest) : c.toNat < 0x80 :=
      toNat_lt_of_isIdentifierChar (isIdentifierChar_of_mem h hc)
    rw [isIdentifierText, Bool.and_eq_true, List.all_eq_true] at h
    rw [isWord, Bool.and_eq_true, List.all_eq_true]
    constructor
    · rw [isWordStart, if_pos (hascii first List.mem_cons_self)]
      exact h.1
    · intro c hc
      rw [isWordContinue, if_pos (hascii c (List.mem_cons_of_mem _ hc))]
      exact h.2 c hc

/-- So an identifier can stand in a path: it has not the mark of raw words in front. -/
theorem isPathSegment_of_isIdentifierText {cs : List Char} (h : isIdentifierText cs = true) :
    isPathSegment cs = true := by
  rw [isPathSegment.eq_def]
  split
  · next word =>
    have hmark := isIdentifierChar_of_mem h (c := '#') (by simp)
    cases hmark
  · exact isWord_of_isIdentifierText h

end Text

theorem wordWriter_acceptsIdentifiers : wordWriter.AcceptsIdentifiers :=
  fun text h => ⟨text, if_pos (isPathSegment_of_isIdentifierText h)⟩

theorem wordWriter_keepsIdentifiers : wordWriter.KeepsIdentifiers := by
  intro text word h hword
  cases (if_pos (isPathSegment_of_isIdentifierText h)).symm.trans hword
  rfl

theorem wordWriter_setsTokensApart : wordWriter.SetsTokensApart := by
  intro tokens
  exact congrArg " ".intercalate (List.map_congr_left fun token _ => by cases token <;> rfl)

/-- A type whose names are hardly names. -/
def underscores : Source where
  declarations := {
    toList := [{ package := "_.r", simpleName := "_", tags := [.embeddable] }]
    names_nodup := by decide }

theorem Reachable.rendersNames_underscores :
    ∃ registry, Reachable underscores { naming := { draft := "9" } } registry ∧
      ∃ type ∈ registry.graph.types, ∃ name, type.names.get? .producer = some name ∧
        name.canonicalName = "_.r._9.Producer" ∧
        name.tokens? = some (Text.replaceDots " :: " "_.r._9.Producer") := by
  have hreachable : LeadsTo underscores { naming := { draft := "9" } } {} _ :=
    .step .resolveAll .refl
  have hproducers : (Command.run underscores { naming := { draft := "9" } } {}
      .resolveAll).registry.graph.types.map (·.names.get? .producer) =
        [some ⟨"_.r", ["_9", "Producer"]⟩] := by
    decide +kernel
  obtain ⟨type, htype, hname⟩ := List.mem_map.1 (hproducers ▸ List.mem_cons_self)
  have hcanonical : (⟨"_.r", ["_9", "Producer"]⟩ : ClassName).canonicalName =
      "_.r._9.Producer" := by
    decide +kernel
  refine ⟨_, hreachable, type, htype, _, hname, hcanonical, ?_⟩
  rw [← hcanonical, ClassName.tokens?]
  exact (Reachable.rendersNames wordWriter_acceptsIdentifiers wordWriter_keepsIdentifiers
    wordWriter_setsTokensApart hreachable (by decide) type htype .producer _ hname).1

end Metamodel
