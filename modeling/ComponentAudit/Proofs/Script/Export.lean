import ComponentAudit.Proofs.Script.Declarator

/-! # Exported declarations

`export let` and `export var` declare props. The search for props reads one name behind the keyword,
and the search for plain declarations passes over what is exported. So of the names that one exported
declaration lists, the first is a variable and the others are not (`findAll_exported`). -/

namespace ComponentAudit

/-! ## Lists of names -/

/-- Characters of a numeral such as `-1`, `0xff`, `1_000` or `2.5e+3`. -/
def isNumeralChar (c : Char) : Bool :=
  isAsciiLetter c || isAsciiDigit c || c == '_' || c == '.' || c == '+' || c == '-'

/-- A numeral, written without white space. -/
def IsNumeral (t : Text) : Prop := t.any isAsciiDigit = true ∧ t.all isNumeralChar = true

instance (t : Text) : Decidable (IsNumeral t) := inferInstanceAs (Decidable (_ ∧ _))

/-- A name with a number that it may start out with. -/
structure PlainDeclarator where
  name : Text
  value? : Option Text := none
  isIdentifier : Import.isIdentifier name = true
  isNumeral : ∀ t ∈ value?, IsNumeral t

namespace PlainDeclarator

/-- The declarator as it is written. -/
def text (d : PlainDeclarator) : Text := d.name ++ d.value?.elim [] fun t => ' ' :: '=' :: ' ' :: t

/-- A list of declarators as it is written. -/
def listing (ds : List PlainDeclarator) : Text := Text.join ", " (ds.map text)

/-- A script that exports the names of a list and does nothing else. -/
def exported (keyword : Text) (ds : List PlainDeclarator) : Text :=
  "export " ++ (keyword ++ ' ' :: (listing ds ++ [';']))

end PlainDeclarator

/-! ## Texts in which nothing is declared -/

/-- Characters of the words in a list. -/
def InWord (c : Char) : Prop := isSpace c = false ∧ c ≠ '{' ∧ c ≠ ':'

theorem inWord_of {p : Char → Bool} (hspace : ∀ {c}, isSpace c = true → p c = false)
    (hbrace : p '{' = false) (hcolon : p ':' = false) {c : Char} (h : p c = true) : InWord c := by
  refine ⟨?_, ?_, ?_⟩
  · rw [Bool.eq_false_iff]
    intro hblank
    cases (hspace hblank).symm.trans h
  · rintro rfl
    cases hbrace.symm.trans h
  · rintro rfl
    cases hcolon.symm.trans h

theorem inWord_of_isIdentChar {c : Char} (h : isIdentChar c = true) : InWord c :=
  inWord_of isIdentChar_of_isSpace (by decide +kernel) (by decide +kernel) h

theorem isNumeralChar_of_isSpace {c : Char} (h : isSpace c = true) : isNumeralChar c = false :=
  of_isSpace h (by decide +kernel)

theorem inWord_of_isNumeralChar {c : Char} (h : isNumeralChar c = true) : InWord c :=
  inWord_of isNumeralChar_of_isSpace (by decide) (by decide) h

/-- A text without braces and colons in which white space behind a word belongs to an assignment. -/
structure Undeclaring (t : Text) : Prop where
  plain : ∀ c ∈ t, c ≠ '{' ∧ c ≠ ':'
  assigned : ∀ c space back, c :: space :: back <:+ t → isIdentChar c = true → isSpace space = true →
    back.head? = some '='

namespace Undeclaring

variable {c : Char} {t rest : Text}

theorem cons (hplain : c ≠ '{' ∧ c ≠ ':')
    (hassigned : ∀ space back, t = space :: back → isIdentChar c = true → isSpace space = true →
      back.head? = some '=')
    (h : Undeclaring t) : Undeclaring (c :: t) where
  plain := List.forall_mem_cons.mpr ⟨hplain, h.plain⟩
  assigned x space back hsuffix := by
    rcases List.suffix_cons_iff.mp hsuffix with heq | hsuffix
    · obtain ⟨rfl, rfl⟩ := List.cons.inj heq
      exact hassigned space back rfl
    · exact h.assigned x space back hsuffix

theorem nil : Undeclaring [] where
  plain := List.forall_mem_nil _
  assigned _ _ _ h := by cases List.suffix_nil.mp h

/-- A character that is no part of a word. -/
theorem sign (hplain : c ≠ '{' ∧ c ≠ ':') (hc : isIdentChar c = false) (h : Undeclaring t) :
    Undeclaring (c :: t) := by
  refine h.cons hplain fun _ _ _ hident => ?_
  cases hc.symm.trans hident

theorem space (h : Undeclaring t) : Undeclaring (' ' :: t) :=
  h.sign (by decide) (by decide +kernel)

theorem equals (h : Undeclaring t) : Undeclaring ('=' :: ' ' :: t) :=
  h.space.sign (by decide) (by decide +kernel)

/-- A word in front of a character other than white space, or in front of an assignment. -/
theorem word {word : Text} (hword : ∀ c ∈ word, InWord c)
    (hnext : ∀ space back, t = space :: back → isSpace space = true → back.head? = some '=')
    (h : Undeclaring t) : Undeclaring (word ++ t) := by
  induction word with
  | nil => exact h
  | cons c word ih =>
    obtain ⟨⟨-, hplain⟩, hword⟩ := List.forall_mem_cons.mp hword
    refine (ih hword).cons hplain fun space back heq _ hspace => ?_
    cases word with
    | nil => exact hnext space back heq hspace
    | cons d word =>
      obtain ⟨rfl, -⟩ := List.cons.inj heq
      cases (hword _ List.mem_cons_self).1.symm.trans hspace

/-- Behind a word that stands in front of white space, an assignment follows. -/
theorem peek?_wordAndSpaces? (h : Undeclaring t) {c stop : Cursor} (hc : c.after <:+ t) {word : Text}
    (hname : IsName word) (hstop : c.wordAndSpaces? word = some stop) : stop.peek? = some '=' := by
  obtain ⟨spaces, hspaces, hblank, hreads, hink⟩ := Cursor.wordAndSpaces?_eq_some.mp hstop
  obtain ⟨space, more, rfl⟩ := List.exists_cons_of_ne_nil hspaces
  obtain ⟨hspace, hmore⟩ := List.forall_mem_cons.mp hblank
  have hlast : isIdentChar (word.getLast hname.1) = true := hname.2 _ (List.getLast_mem hname.1)
  have hafter : c.after = word.dropLast ++ word.getLast hname.1 :: space :: (more ++ stop.after) := by
    rw [hreads.after]
    conv => lhs; rw [← List.dropLast_concat_getLast hname.1]
    simp
  have hassigned := h.assigned _ space (more ++ stop.after)
    ((hafter ▸ List.suffix_append _ _).trans hc) hlast hspace
  cases more with
  | nil => exact hassigned
  | cons d more =>
    obtain rfl : d = '=' := Option.some.inj hassigned
    cases hmore '=' List.mem_cons_self

end Undeclaring

namespace PlainDeclarator

theorem listing_singleton (d : PlainDeclarator) : listing [d] ++ [';'] = d.text ++ [';'] := by
  rw [listing, List.map_cons, List.map_nil, Text.join_singleton]

theorem listing_cons_cons (d e : PlainDeclarator) (ds : List PlainDeclarator) :
    listing (d :: e :: ds) ++ [';'] = d.text ++ ',' :: ' ' :: (listing (e :: ds) ++ [';']) := by
  simp [listing, Text.join_cons_cons]

theorem undeclaring_text (d : PlainDeclarator) {c : Char} {rest : Text} (hc : c = ',' ∨ c = ';')
    (h : Undeclaring rest) : Undeclaring (d.text ++ c :: rest) := by
  have hsign : isSpace c = false ∧ (c ≠ '{' ∧ c ≠ ':') ∧ isIdentChar c = false := by
    rcases hc with rfl | rfl <;> decide +kernel
  obtain ⟨hspace, hplain, hident⟩ := hsign
  have hrest : Undeclaring (c :: rest) := h.sign hplain hident
  have hink : ∀ space back, c :: rest = space :: back → isSpace space = true →
      back.head? = some '=' := by
    rintro space back heq hblank
    obtain ⟨rfl, -⟩ := List.cons.inj heq
    cases hspace.symm.trans hblank
  have hname : ∀ x ∈ d.name, InWord x := by
    intro x hx
    exact inWord_of_isIdentChar ((Import.isName_of_isIdentifier d.isIdentifier).2 x hx)
  rw [text, List.append_assoc]
  cases hvalue : d.value? with
  | none => exact hrest.word hname hink
  | some t =>
    have hnumeral : ∀ x ∈ t, InWord x := by
      intro x hx
      exact inWord_of_isNumeralChar (List.all_eq_true.mp (d.isNumeral t hvalue).2 x hx)
    refine (hrest.word hnumeral hink).equals.space.word hname fun space back heq _ => ?_
    obtain ⟨-, rfl⟩ := List.cons.inj heq
    rfl

theorem undeclaring_listing {ds : List PlainDeclarator} : Undeclaring (listing ds ++ [';']) := by
  induction ds with
  | nil => exact Undeclaring.nil.sign (by decide) (by decide +kernel)
  | cons d ds ih =>
    cases ds with
    | nil =>
      rw [listing_singleton]
      exact d.undeclaring_text (.inr rfl) .nil
    | cons e ds =>
      rw [listing_cons_cons]
      exact d.undeclaring_text (.inl rfl) ih.space

/-- A list starts with its first name, which goes no further. -/
theorem exists_listing_cons (d : PlainDeclarator) (ds : List PlainDeclarator) :
    ∃ x rest, listing (d :: ds) ++ [';'] = d.name ++ x :: rest ∧ isIdentChar x = false := by
  have htext : ∀ c rest, isIdentChar c = false →
      ∃ x more, d.text ++ c :: rest = d.name ++ x :: more ∧ isIdentChar x = false := by
    intro c rest hc
    rw [text, List.append_assoc]
    cases d.value? with
    | none => exact ⟨c, rest, rfl, hc⟩
    | some t => exact ⟨' ', '=' :: ' ' :: (t ++ c :: rest), rfl, by decide +kernel⟩
  cases ds with
  | nil => exact d.listing_singleton ▸ htext ';' [] (by decide +kernel)
  | cons e ds => exact d.listing_cons_cons e ds ▸ htext ',' _ (by decide +kernel)

end PlainDeclarator

/-! ## What is found -/

namespace Variable

section Undeclaring

variable {t : Text} {c : Cursor}

theorem exportedProp?_of_undeclaring (h : Undeclaring t) (hc : c.after <:+ t) :
    exportedProp? c = none := by
  rw [Option.eq_none_iff_forall_not_mem]
  rintro ⟨found, stop⟩ hfound
  obtain ⟨behind, place, hexport, hkeyword, -⟩ := exists_of_exportedProp? hfound
  have hpeek := h.peek?_wordAndSpaces? hc (by decide +kernel) hexport
  obtain ⟨word, hword, hspaces⟩ := Cursor.exists_of_oneOf? hkeyword
  obtain ⟨spaces, -, -, hreads, -⟩ := Cursor.wordAndSpaces?_eq_some.mp hspaces
  simp only [List.mem_cons, List.not_mem_nil, or_false, Prod.mk.injEq, and_true] at hword
  rcases hword with rfl | rfl <;> cases hreads.peek?.symm.trans hpeek

/-- A declaration starts with one of the keywords, and white space parts it from what it declares. -/
theorem exists_of_declaration? {place rest stop : Cursor} {kind : VariableKind}
    (h : declaration? c = some ((place, kind, rest), stop)) :
    place = c ∧ ∃ word, (word, kind) ∈ declarationKeywords ∧ c.wordAndSpaces? word = some rest ∧
      rest.peek?.any (fun ch => isIdentHead ch || ch == '{' || ch == '[') = true := by
  obtain ⟨rfl, hkeyword, hhead⟩ := oneOf?_of_declaration? h
  obtain ⟨word, hmem, hspaces⟩ := Cursor.exists_of_oneOf? hkeyword
  exact ⟨rfl, word, hmem, hspaces, hhead⟩

theorem declaration?_of_undeclaring (h : Undeclaring t) (hc : c.after <:+ t) :
    declaration? c = none := by
  rw [Option.eq_none_iff_forall_not_mem]
  rintro ⟨⟨place, kind, rest⟩, stop⟩ hfound
  obtain ⟨-, word, hmem, hspaces, hhead⟩ := exists_of_declaration? hfound
  have hnames : ∀ entry ∈ declarationKeywords, IsName entry.1 := by decide +kernel
  rw [h.peek?_wordAndSpaces? hc (hnames _ hmem) hspaces] at hhead
  cases hhead

end Undeclaring

section Exported

variable {keyword : Text} {ds : List PlainDeclarator}

open PlainDeclarator (listing exported)

theorem exported_eq : exported keyword ds = 'e' :: 'x' :: 'p' :: 'o' :: 'r' :: 't' :: ' ' ::
    (keyword ++ ' ' :: (listing ds ++ [';'])) := rfl

/-- The places of a script that exports a list: the start, the keyword, places at which no word of
a declaration stands, and places in the list. -/
theorem suffix_exported (hkeyword : keyword = "let" ∨ keyword = "var") {t : Text}
    (h : t <:+ exported keyword ds) :
    t = exported keyword ds ∨ t = keyword ++ ' ' :: (listing ds ++ [';']) ∨
      (∀ word ∈ [("export" : Text), "let", "const", "var"], ¬ word <+: t) ∨
        t <:+ listing ds ++ [';'] := by
  have hletters : keyword = ['l', 'e', 't'] ∨ keyword = ['v', 'a', 'r'] := hkeyword
  rw [exported_eq] at h ⊢
  generalize listing ds ++ [';'] = list at h ⊢
  simp only [List.suffix_cons_iff] at h
  rcases h with h | h | h | h | h | h | h | h
  · exact .inl h
  -- inside `export` and behind it
  iterate 6
    subst h
    exact .inr (.inr (.inl (by simp)))
  have hbehind : t = keyword ++ ' ' :: list ∨
      (∀ word ∈ [("export" : Text), "let", "const", "var"], ¬ word <+: t) ∨ t <:+ list := by
    rcases hletters with rfl | rfl
    all_goals
      simp only [List.cons_append, List.nil_append, List.suffix_cons_iff] at h ⊢
      rcases h with h | h | h | h | h
      · exact .inl h
      iterate 3
        subst h
        exact .inr (.inl (by simp))
      exact .inr (.inr h)
  exact .inr hbehind

/-- No brace and no colon is in the script. -/
theorem plain_exported (hkeyword : keyword = "let" ∨ keyword = "var") :
    ∀ c ∈ exported keyword ds, c ≠ '{' ∧ c ≠ ':' := by
  have hletters : ∀ c ∈ keyword, c ≠ '{' ∧ c ≠ ':' := by rcases hkeyword with rfl | rfl <;> simp
  have hexport : ∀ c ∈ ['e', 'x', 'p', 'o', 'r', 't', ' '], c ≠ '{' ∧ c ≠ ':' := by simp
  have hlist : ∀ c ∈ ' ' :: (listing ds ++ [';']), c ≠ '{' ∧ c ≠ ':' :=
    PlainDeclarator.undeclaring_listing.space.plain
  intro c hc
  rcases List.mem_append.mp (show c ∈ ['e', 'x', 'p', 'o', 'r', 't', ' '] ++
    (keyword ++ ' ' :: (listing ds ++ [';'])) from hc) with hc | hc
  · exact hexport c hc
  · rcases List.mem_append.mp hc with hc | hc
    · exact hletters c hc
    · exact hlist c hc

theorem patternProps_eq_nil {script : Text} (h : '{' ∉ script) : patternProps script = [] := by
  rw [patternProps, List.flatMap_eq_nil_iff]
  rintro ⟨statement, brace⟩ hfound
  exfalso
  obtain ⟨c, stop, rfl, hr⟩ := Cursor.mem_collect hfound
  obtain ⟨-, hbrace, -⟩ := exists_of_patternStart? hr
  refine h ?_
  rw [← text_patternStart? hr, Cursor.text, (Cursor.expect?_eq_some.mp hbrace).after]
  simp

theorem collect_reactive?_eq_nil {script : Text} (h : ':' ∉ script) :
    Cursor.collect reactive? script = [] := by
  rw [List.eq_nil_iff_forall_not_mem]
  intro found hfound
  obtain ⟨c, stop, rfl, hr⟩ := Cursor.mem_collect hfound
  obtain ⟨label, behind, hlabel, -⟩ := exists_of_reactive? hr
  have hreads := Cursor.expect?_eq_some.mp hlabel
  refine h ?_
  rw [← Cursor.text_skipWhile (fun ch => ch == ' ' || ch == '\t') c, Cursor.text, hreads.after]
  simp

/-- The keyword behind `export` is not that of a constant. -/
theorem precededBy_export {before : Text} {kind : VariableKind} {word : Text}
    (hkeyword : keyword = "let" ∨ keyword = "var") (hmem : (word, kind) ∈ declarationKeywords)
    (htext : before.reverse ++ (keyword ++ ' ' :: (listing ds ++ [';'])) = exported keyword ds)
    (hlead : word <+: keyword ++ ' ' :: (listing ds ++ [';'])) :
    Cursor.precededBy ⟨before, keyword ++ ' ' :: (listing ds ++ [';'])⟩ "export" = true ∧
      (kind != .constBinding) = true := by
  constructor
  · have hword : Cursor.precededBy ⟨"export ".toList.reverse, []⟩ "export" = true := by decide +kernel
    have hbefore : before.reverse = ("export " : Text) := List.append_cancel_right htext
    rw [Cursor.precededBy, ← List.reverse_reverse before, hbefore]
    exact hword
  · simp only [declarationKeywords, List.mem_cons, List.not_mem_nil, or_false, Prod.mk.injEq] at hmem
    rcases hmem with ⟨-, rfl⟩ | ⟨rfl, -⟩ | ⟨-, rfl⟩
    · rfl
    · rcases hkeyword with rfl | rfl <;> simp at hlead
    · rfl

/-- An exported declaration is passed over. -/
theorem declared_exported (hkeyword : keyword = "let" ∨ keyword = "var") :
    declared (exported keyword ds) = [] := by
  rw [declared, List.flatMap_eq_nil_iff]
  rintro ⟨place, kind, rest⟩ hfound
  obtain ⟨⟨before, after⟩, stop, htext, hdeclaration⟩ := Cursor.mem_collect hfound
  obtain ⟨rfl, word, hmem, hspaces, -⟩ := exists_of_declaration? hdeclaration
  have hlead := Cursor.prefix_of_wordAndSpaces? hspaces
  have hwords : ∀ entry ∈ declarationKeywords,
      entry.1 ∈ [("export" : Text), "let", "const", "var"] := by decide
  rcases suffix_exported hkeyword ⟨before.reverse, htext⟩ with rfl | rfl | hnone | hlist
  · simp only [declarationKeywords, List.mem_cons, List.not_mem_nil, or_false, Prod.mk.injEq] at hmem
    rcases hmem with ⟨rfl, -⟩ | ⟨rfl, -⟩ | ⟨rfl, -⟩ <;> simp [exported_eq] at hlead
  · obtain ⟨hexport, hkind⟩ := precededBy_export hkeyword hmem htext hlead
    simp only [hexport, hkind, Bool.and_self, if_true]
  · exact absurd hlead (hnone word (hwords _ hmem))
  · cases (declaration?_of_undeclaring PlainDeclarator.undeclaring_listing hlist).symm.trans hdeclaration

theorem exportedProp?_eq_none {c : Cursor} (h : ¬ "export".toList <+: c.after) :
    exportedProp? c = none := by
  rw [Option.eq_none_iff_forall_not_mem]
  rintro ⟨found, stop⟩ hfound
  obtain ⟨behind, place, hexport, -⟩ := exists_of_exportedProp? hfound
  exact h (Cursor.prefix_of_wordAndSpaces? hexport)

/-- The name behind the keyword is read. -/
theorem exportedProp?_exported (hkeyword : keyword = "let" ∨ keyword = "var") (d : PlainDeclarator) :
    ∃ stop, exportedProp? ⟨[], exported keyword (d :: ds)⟩ = some (⟨d.name, .prop, 0, 11⟩, stop) := by
  obtain ⟨x, rest, hlist, hx⟩ := d.exists_listing_cons ds
  have hname := Import.isName_of_isIdentifier d.isIdentifier
  have hblank : Blank [' '] := by simp [Blank, isSpace]
  let place : Cursor := ⟨(keyword ++ [' ']).reverse ++ "export ".toList.reverse, d.name ++ x :: rest⟩
  have hidentifier :
      place.identifier? = some (d.name, ⟨d.name.reverse ++ place.before, x :: rest⟩) := by
    refine Cursor.identifier?_of_isIdentifier d.isIdentifier fun c hc => ?_
    exact Option.some.inj hc ▸ hx
  have hink : ∀ c, place.peek? = some c → isSpace c = false := by
    intro c hc
    obtain ⟨first, more, hfirst⟩ := List.exists_cons_of_ne_nil hname.1
    have hhead : some first = some c := by
      rw [← hc]
      simp [place, Cursor.peek?, hfirst]
    exact (inWord_of_isIdentChar (hname.2 c (by simp [hfirst, Option.some.inj hhead]))).1
  have hword : Cursor.wordAndSpaces? keyword
      ⟨"export ".toList.reverse, keyword ++ ' ' :: (listing (d :: ds) ++ [';'])⟩ = some place := by
    rw [hlist, List.append_cons]
    exact Cursor.wordAndSpaces?_eq_some.mpr ⟨[' '], List.cons_ne_nil _ _, hblank,
      Cursor.reads_append _ _ _, hink⟩
  have hexport : Cursor.wordAndSpaces? "export" ⟨[], exported keyword (d :: ds)⟩ =
      some ⟨"export ".toList.reverse, keyword ++ ' ' :: (listing (d :: ds) ++ [';'])⟩ := by
    refine Cursor.wordAndSpaces?_eq_some.mpr ⟨[' '], List.cons_ne_nil _ _, hblank,
      Cursor.reads_append [] _ _, fun c hc => ?_⟩
    rcases hkeyword with rfl | rfl <;> obtain rfl := Option.some.inj hc <;> decide
  have hoffset : place.offset = 11 := by
    rcases hkeyword with rfl | rfl <;> rfl
  have hkey : Cursor.oneOf? [("let", ()), ("var", ())]
      ⟨"export ".toList.reverse, keyword ++ ' ' :: (listing (d :: ds) ++ [';'])⟩ = some ((), place) := by
    rcases hkeyword with rfl | rfl
    · exact Cursor.oneOf?_cons_some hword
    · exact (Cursor.oneOf?_cons_none rfl).trans (Cursor.oneOf?_cons_some hword)
  refine ⟨⟨d.name.reverse ++ place.before, x :: rest⟩, ?_⟩
  unfold exportedProp?
  rw [hexport]
  simp only [Option.bind_eq_bind, Option.bind_some]
  rw [hkey]
  simp only [Option.bind_some, hidentifier, hoffset]
  rfl

/-- Only the first name of a list is read as a prop. -/
theorem collect_exportedProp?_exported (hkeyword : keyword = "let" ∨ keyword = "var")
    (d : PlainDeclarator) :
    Cursor.collect exportedProp? (exported keyword (d :: ds)) = [⟨d.name, .prop, 0, 11⟩] := by
  obtain ⟨stop, hstop⟩ := @exportedProp?_exported keyword ds hkeyword d
  have hbehind : ∀ c : Cursor, c.after <:+ (exported keyword (d :: ds)).tail →
      exportedProp? c = none := by
    intro c hc
    rcases suffix_exported hkeyword (hc.trans (List.tail_suffix _)) with hstart | hplace | hnone | hlist
    · have hle := hc.length_le
      rw [hstart, exported_eq, List.tail_cons, List.length_cons] at hle
      omega
    · refine exportedProp?_eq_none ?_
      rw [hplace]
      rcases hkeyword with rfl | rfl <;> simp
    · exact exportedProp?_eq_none (hnone _ List.mem_cons_self)
    · exact exportedProp?_of_undeclaring PlainDeclarator.undeclaring_listing hlist
  rw [exported_eq, List.tail_cons] at hbehind
  rw [exported_eq] at hstop
  rw [exported_eq, Cursor.collect, Cursor.collectFrom, hstop]
  exact congrArg _ (Cursor.collectFrom_eq_nil hbehind)

/-- Of the names that an exported declaration lists, the first is a prop and no other is a variable. So
the list loses no name if it has one only. -/
theorem findAll_exported (hkeyword : keyword = "let" ∨ keyword = "var") {d : PlainDeclarator}
    (hdistinct : ((d :: ds).map PlainDeclarator.name).Nodup) :
    findAll (exported keyword (d :: ds)) [] = [⟨d.name, .prop, 0, 11⟩] ∧
      ((∀ e ∈ d :: ds, ∃ found ∈ findAll (exported keyword (d :: ds)) [], found.name = e.name) ↔
        ds = []) := by
  have hplain := @plain_exported keyword (d :: ds) hkeyword
  have hprops : patternProps (exported keyword (d :: ds)) = [] :=
    patternProps_eq_nil fun hbrace => (hplain _ hbrace).1 rfl
  have hreactive : Cursor.collect reactive? (exported keyword (d :: ds)) = [] :=
    collect_reactive?_eq_nil fun hcolon => (hplain _ hcolon).2 rfl
  have hfound : findAll (exported keyword (d :: ds)) [] = [⟨d.name, .prop, 0, 11⟩] := by
    rw [findAll, collect_exportedProp?_exported hkeyword, hprops, declared_exported hkeyword, hreactive]
    rfl
  refine ⟨hfound, ?_⟩
  rw [hfound]
  constructor
  · intro hall
    rw [List.eq_nil_iff_forall_not_mem]
    intro e he
    obtain ⟨found, hmem, hname⟩ := hall e (List.mem_cons_of_mem d he)
    obtain rfl := List.mem_singleton.mp hmem
    refine (List.nodup_cons.mp hdistinct).1 ?_
    exact List.mem_map.mpr ⟨e, he, hname.symm⟩
  · rintro rfl e he
    obtain rfl := List.mem_singleton.mp he
    exact ⟨_, List.mem_singleton_self _, rfl⟩

theorem findAll_exported_var :
    let size : PlainDeclarator := ⟨"size", some "2.5e3", by decide, by decide⟩
    let unit : PlainDeclarator := ⟨"unit", none, by decide, by decide⟩
    exported "var" [size, unit] = "export var size = 2.5e3, unit;".toList ∧
      findAll (exported "var" [size, unit]) [] = [⟨"size", .prop, 0, 11⟩] ∧
      ¬ ∀ e ∈ [size, unit], ∃ found ∈ findAll (exported "var" [size, unit]) [], found.name = e.name := by
  intro size unit
  have hdistinct : ([size, unit].map PlainDeclarator.name).Nodup := by decide
  obtain ⟨hfound, hall⟩ := @findAll_exported "var" [unit] (.inr rfl) size hdistinct
  refine ⟨rfl, hfound, fun hnames => ?_⟩
  cases hall.mp hnames

/-- A second name is lost, though it is one of two and different from the first. -/
theorem findAll_exported_pair :
    let a : PlainDeclarator := ⟨"a", none, by decide, by decide⟩
    let b : PlainDeclarator := ⟨"b", none, by decide, by decide⟩
    exported "let" [a, b] = "export let a, b;".toList ∧
      ([a, b].map PlainDeclarator.name).Nodup ∧
      ¬ ∀ e ∈ [a, b], ∃ found ∈ findAll "export let a, b;".toList [], found.name = e.name := by
  intro a b
  refine ⟨rfl, by decide, fun hall => ?_⟩
  have hnames : (findAll "export let a, b;".toList []).map FoundVariable.name = [("a" : Text)] := by
    decide +kernel
  obtain ⟨found, hmem, hname⟩ := hall b (by simp)
  have hb : found.name ∈ [("a" : Text)] := hnames ▸ List.mem_map_of_mem hmem
  rw [hname] at hb
  exact absurd hb (by decide)

end Exported

end Variable

end ComponentAudit
