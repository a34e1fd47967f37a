import ComponentAudit.Proofs.Script.Recogniser
import ComponentAudit.Proofs.Text.Cut
import ComponentAudit.Proofs.Text.Split
import ComponentAudit.Proofs.Text.Trim

/-! # Import clauses

A clause binds a default name, an alias of the whole module, and names between braces, each with an
alias or without, and it may be marked with `type`. Any white space may part its words. The reader tells
the mark by a blank behind it and an alias by a blank on either side of `as`, so it reads the local names
that are written this way, and some names spelled like the mark are lost (`clauseSymbols_text`). -/

namespace ComponentAudit

namespace Text

theorem cut?_word {word t : Text} (h : ' ' ∉ word) :
    cut? " as " (word ++ t) = (cut? " as " t).map fun (head, tail) => (word ++ head, tail) :=
  cut?_skip h

/-- At white space the text is cut only if a blank stands at its end and ` as ` goes on from there. -/
theorem cut?_gap {gap t : Text} (hgap : Blank gap) (hne : gap ≠ []) :
    cut? " as " (gap ++ t) =
      if gap.getLast? = some ' ' ∧ "as ".toList <+: t then some (gap.dropLast, t.drop 3)
      else (cut? " as " t).map fun (head, tail) => (gap ++ head, tail) := by
  induction gap with
  | nil => exact absurd rfl hne
  | cons c gap ih =>
    have hc := hgap c List.mem_cons_self
    cases gap with
    | nil =>
      have hstarts : List.isPrefixOf " as ".toList (c :: t) = true ↔ c = ' ' ∧ "as ".toList <+: t := by
        rw [List.isPrefixOf_iff_prefix]
        exact List.cons_prefix_cons.trans (and_congr_left fun _ => eq_comm)
      rw [List.singleton_append, cut?]
      simp only [hstarts, List.getLast?_singleton, Option.some.injEq]
      rfl
    | cons d gap =>
      have hd := hgap d (by simp)
      have hskip : List.isPrefixOf " as ".toList (c :: (d :: gap ++ t)) = false := by
        have hne : 'a' ≠ d := by rintro rfl; cases hd
        simp [List.isPrefixOf, hne]
      rw [List.cons_append, cut?, hskip, ih (fun x hx => hgap x (List.mem_cons_of_mem c hx)) (by simp),
        List.getLast?_cons_cons, if_neg Bool.false_ne_true]
      split
      · rfl
      · simp [Function.comp_def]

end Text

namespace ImportClause

/-! ## Clauses and how they are written -/

/-- White space where none is needed. -/
abbrev Space := { t : Text // Blank t }

/-- White space between two words. -/
abbrev Gap := { t : Text // Blank t ∧ t ≠ [] }

abbrev Name := { t : Text // Import.isIdentifier t = true }

/-- The word `as` and the name behind it. -/
structure Alias where
  before : Gap
  behind : Gap
  name : Name

/-- A name between the braces, with an alias or without; the gap is the one behind the mark `type`. -/
structure Specifier where
  mark? : Option Gap := none
  name : Name
  alias? : Option Alias := none

/-- A part between the braces. There may be nothing in it, as behind a last comma. -/
structure Part where
  before : Space
  specifier? : Option Specifier
  behind : Space

/-- What a clause binds. The spaces are those before and behind the comma. -/
inductive Body where
  | default (name : Name)
  | module (a : Alias)
  | braces (parts : List Part)
  | defaultModule (name : Name) (before behind : Space) (a : Alias)
  | defaultBraces (name : Name) (before behind : Space) (parts : List Part)

/-- A clause; the gap is the one behind the mark `type`. -/
structure Clause where
  before : Space
  mark? : Option Gap
  body : Body
  behind : Space

/-- The mark `type` as it is written. -/
def markText (mark? : Option Gap) : Text := mark?.elim [] fun gap => "type" ++ gap.1

def Alias.text (a : Alias) : Text := a.before.1 ++ ("as" ++ (a.behind.1 ++ a.name.1))

def Specifier.text (s : Specifier) : Text :=
  markText s.mark? ++ (s.name.1 ++ s.alias?.elim [] Alias.text)

def Part.text (part : Part) : Text :=
  part.before.1 ++ (part.specifier?.elim [] Specifier.text ++ part.behind.1)

def bracesText (parts : List Part) : Text := '{' :: (Text.join [','] (parts.map Part.text) ++ ['}'])

def Body.text : Body → Text
  | .default name => name.1
  | .module a => '*' :: a.text
  | .braces parts => bracesText parts
  | .defaultModule name before behind a => name.1 ++ (before.1 ++ ',' :: (behind.1 ++ '*' :: a.text))
  | .defaultBraces name before behind parts =>
    name.1 ++ (before.1 ++ ',' :: (behind.1 ++ bracesText parts))

def Clause.text (c : Clause) : Text := c.before.1 ++ (markText c.mark? ++ (c.body.text ++ c.behind.1))

/-- The local name of a specifier. -/
def Specifier.localName (s : Specifier) : Text := (s.alias?.elim s.name Alias.name).1

/-! ## What is read of them -/

/-- A blank opens the text. -/
def opensBlank (t : Text) : Bool := t.head? == some ' '

/-- A blank ends the text. -/
def endsBlank (t : Text) : Bool := t.getLast? == some ' '

/-- Blanks touch the word `as` on both sides. -/
def Alias.isRead (a : Alias) : Bool := endsBlank a.before.1 && opensBlank a.behind.1

/-- The mark is told by the blank behind it. So a name `type` with a blank behind it is taken for a mark,
and a mark with other white space behind it is taken for a name. -/
def Specifier.isRead (s : Specifier) : Bool :=
  match s.mark?, s.alias? with
  | none, none => true
  | none, some a => a.isRead && !(s.name.1 == "type".toList && opensBlank a.before.1)
  | some gap, none => opensBlank gap.1
  | some gap, some a =>
    a.isRead && (opensBlank gap.1 ||
      !(endsBlank gap.1 && s.name.1 == "as".toList && opensBlank a.before.1))

/-- A name that a clause binds, and whether it is read. -/
structure Bound where
  name : Text
  isRead : Bool

/-- The names that are read. -/
def kept (names : List Bound) : List Text := (names.filter Bound.isRead).map Bound.name

/-- The names between the braces. -/
def boundBetween (parts : List Part) : List Bound :=
  (parts.filterMap Part.specifier?).map fun s => ⟨s.localName, s.isRead⟩

namespace Body

/-- The default name in front of a comma is taken for a mark. -/
def opensAsMark : Body → Bool
  | .defaultModule name before _ _ | .defaultBraces name before _ _ =>
    name.1 == "type".toList && opensBlank before.1
  | _ => false

/-- The names that a clause binds, from left to right, given whether the first part in front of the
braces can be read. -/
def bound (isFirstRead : Bool) : Body → List Bound
  | .default name => [⟨name.1, isFirstRead⟩]
  | .module a => [⟨a.name.1, isFirstRead && a.isRead⟩]
  | .braces parts => boundBetween parts
  | .defaultModule name _ _ a => [⟨name.1, isFirstRead⟩, ⟨a.name.1, a.isRead⟩]
  | .defaultBraces name _ _ parts => ⟨name.1, isFirstRead⟩ :: boundBetween parts

/-- A mark that is not told is read as a default name if only braces follow it. -/
def stray : Body → List Text
  | .braces _ => ["type".toList]
  | _ => []

end Body

namespace Clause

/-- The mark of the clause is told, and no name is taken for one. -/
def readsFirst (c : Clause) : Bool :=
  c.mark?.elim (!c.body.opensAsMark) fun gap => opensBlank gap.1

/-- The names that a clause binds, from left to right. -/
def bound (c : Clause) : List Bound := c.body.bound c.readsFirst

/-- The local names of a clause. -/
def localNames (c : Clause) : List Text := c.bound.map Bound.name

/-- What is read of a clause though it binds no such name. -/
def stray (c : Clause) : List Text := if c.mark?.isSome && !c.readsFirst then c.body.stray else []

end Clause

/-! ## Characters -/

theorem isSpace_of_isIdentChar {c : Char} (h : isIdentChar c = true) : isSpace c = false := by
  cases hspace : isSpace c with
  | false => rfl
  | true => cases (isIdentChar_of_isSpace hspace).symm.trans h

/-- The characters that a clause is cut at. -/
def Uncut (t : Text) : Prop := ',' ∉ t ∧ '{' ∉ t ∧ '}' ∉ t

theorem uncut_append {s t : Text} (hs : Uncut s) (ht : Uncut t) : Uncut (s ++ t) := by
  simp only [Uncut, List.mem_append, not_or]
  exact ⟨⟨hs.1, ht.1⟩, ⟨hs.2.1, ht.2.1⟩, hs.2.2, ht.2.2⟩

theorem uncut_blank {t : Text} (h : Blank t) : Uncut t :=
  ⟨h.not_mem (by decide), h.not_mem (by decide), h.not_mem (by decide)⟩

theorem uncut_isName {t : Text} (h : IsName t) : Uncut t := by
  have hnot : ∀ c, isIdentChar c = false → c ∉ t := by
    intro c hc hmem
    cases hc.symm.trans (h.2 c hmem)
  exact ⟨hnot _ (by decide +kernel), hnot _ (by decide +kernel), hnot _ (by decide +kernel)⟩

theorem isName (name : Name) : IsName name.1 := Import.isName_of_isIdentifier name.2

theorem isName_type : IsName "type" := Import.isName_of_isIdentifier (by decide +kernel)

theorem isName_as : IsName "as" := Import.isName_of_isIdentifier (by decide +kernel)

theorem inked_of_isName {t : Text} (h : IsName t) : t.Inked where
  ne_nil := h.1
  head c hc := isSpace_of_isIdentChar (h.2 c (List.mem_of_head? hc))
  last c hc := isSpace_of_isIdentChar (h.2 c (List.mem_of_getLast? hc))

/-- A text that opens as one inked text and ends as another. -/
theorem inked_append {s u t : Text} (hs : s.Inked) (ht : t.Inked) : (s ++ (u ++ t)).Inked where
  ne_nil := List.append_ne_nil_of_left_ne_nil hs.ne_nil _
  head c hc := by
    rw [List.head?_append, Option.or_eq_some_iff] at hc
    exact hc.elim (hs.head c) fun h => absurd (List.head?_eq_none_iff.mp h.1) hs.ne_nil
  last c hc := by
    rw [← List.append_assoc, List.getLast?_append, Option.or_eq_some_iff] at hc
    exact hc.elim (ht.last c) fun h => absurd (List.getLast?_eq_none_iff.mp h.1) ht.ne_nil

theorem blank_not_mem_isName {t : Text} (h : IsName t) : ' ' ∉ t := by
  intro hmem
  exact absurd (isSpace_of_isIdentChar (h.2 _ hmem)) (by decide)

/-- White space makes a text no identifier. -/
theorem isIdentifier_of_mem {t : Text} {c : Char} (hmem : c ∈ t) (hc : isSpace c = true) :
    Import.isIdentifier t = false := by
  rw [Bool.eq_false_iff]
  intro h
  cases (isSpace_of_isIdentChar ((Import.isName_of_isIdentifier h).2 c hmem)).symm.trans hc

/-- A word with a blank behind it opens a text exactly if it is the first name of the text. -/
theorem prefix_blank_iff {word name t : Text} (hword : IsName word) (hname : IsName name)
    (ht : ∀ c, t.head? = some c → isIdentChar c = false) :
    word ++ [' '] <+: name ++ t ↔ name = word ∧ opensBlank t = true := by
  have hrun : (name ++ t).takeWhile isIdentChar = name := takeWhile_append_of_stop hname.2 ht
  constructor
  · rintro ⟨rest, hrest⟩
    have hword : (word ++ [' '] ++ rest).takeWhile isIdentChar = word := by
      rw [List.append_assoc]
      exact takeWhile_append_of_stop hword.2 (by simp; decide +kernel)
    rw [hrest, hrun] at hword
    subst hword
    rw [List.append_assoc, List.append_cancel_left_eq] at hrest
    exact ⟨rfl, by simp [opensBlank, ← hrest]⟩
  · rintro ⟨rfl, hblank⟩
    obtain ⟨rest, rfl⟩ := List.head?_eq_some_iff.mp (eq_of_beq hblank)
    exact ⟨rest, by simp⟩

theorem opensBlank_append {s : Text} (hne : s ≠ []) (t : Text) : opensBlank (s ++ t) = opensBlank s := by
  obtain ⟨c, s, rfl⟩ := List.exists_cons_of_ne_nil hne
  rfl

theorem isIdentChar_of_head?_gap (gap : Gap) (t : Text) :
    ∀ c, (gap.1 ++ t).head? = some c → isIdentChar c = false := by
  obtain ⟨gap, hblank, hne⟩ := gap
  obtain ⟨d, gap, rfl⟩ := List.exists_cons_of_ne_nil hne
  intro c hc
  exact Option.some.inj hc ▸ isIdentChar_of_isSpace (hblank d List.mem_cons_self)

theorem blank_tail {t : Text} (h : Blank t) : Blank t.tail := fun c hc => h c (List.mem_of_mem_tail hc)

theorem isIdentifier_of_gap (gap : Gap) (s t : Text) : Import.isIdentifier (s ++ (gap.1 ++ t)) = false := by
  obtain ⟨c, hc⟩ := List.exists_mem_of_ne_nil gap.1 gap.2.2
  exact isIdentifier_of_mem (List.mem_append_right _ (List.mem_append_left _ hc)) (gap.2.1 c hc)

/-! ## Marks and aliases -/

/-- What the mark in front of a trimmed text leaves, if it is told. -/
def unmark (t : Text) : Text := ((Text.dropPrefix? "type " t).map Text.trim).getD t

theorem dropPrefix?_name {name t : Text} (hname : IsName name)
    (ht : ∀ c, t.head? = some c → isIdentChar c = false) :
    Text.dropPrefix? "type " (name ++ t) =
      if name = "type".toList ∧ opensBlank t = true then some t.tail else none := by
  have hstarts := prefix_blank_iff isName_type hname ht
  rw [← List.isPrefixOf_iff_prefix] at hstarts
  have hmark : ("type " : Text) = "type" ++ [' '] := rfl
  rw [Text.dropPrefix?, hmark]
  simp only [hstarts]
  split
  · rename_i h
    rw [h.1, ← List.drop_one]
    rfl
  · rfl

theorem dropPrefix?_mark (gap : Gap) (t : Text) :
    Text.dropPrefix? "type " ("type" ++ (gap.1 ++ t)) =
      if opensBlank gap.1 then some (gap.1.tail ++ t) else none := by
  rw [dropPrefix?_name isName_type (isIdentChar_of_head?_gap gap t), opensBlank_append gap.2.2,
    List.tail_append_of_ne_nil gap.2.2]
  simp only [true_and]

theorem cut?_isName {t : Text} (h : IsName t) : Text.cut? " as " t = none := by
  have hcut := @Text.cut?_word t [] (blank_not_mem_isName h)
  rw [List.append_nil] at hcut
  rw [hcut]
  rfl

/-- The alias behind the white space in front of it. -/
def Alias.rest (a : Alias) : Text := "as" ++ (a.behind.1 ++ a.name.1)

theorem cut?_rest (a : Alias) : Text.cut? " as " a.rest = none := by
  have hname : ¬ "as ".toList <+: a.name.1 := by
    intro h
    exact blank_not_mem_isName (isName a.name) (h.subset (by decide))
  rw [Alias.rest, Text.cut?_word (by decide), Text.cut?_gap a.behind.2.1 a.behind.2.2,
    if_neg fun h => hname h.2, cut?_isName (isName a.name)]
  rfl

theorem cut?_alias (a : Alias) : Text.cut? " as " a.text =
    if a.isRead then some (a.before.1.dropLast, a.behind.1.tail ++ a.name.1) else none := by
  have hstarts : "as ".toList <+: a.rest ↔ opensBlank a.behind.1 = true := by
    have h := prefix_blank_iff isName_as isName_as (isIdentChar_of_head?_gap a.behind a.name.1)
    rwa [opensBlank_append a.behind.2.2, and_iff_right rfl] at h
  have hdrop : a.rest.drop 3 = a.behind.1.tail ++ a.name.1 := by
    rw [← List.tail_append_of_ne_nil a.behind.2.2, ← List.drop_one]
    rfl
  change Text.cut? " as " (a.before.1 ++ a.rest) = _
  rw [Text.cut?_gap a.before.2.1 a.before.2.2, cut?_rest, hdrop]
  simp only [hstarts, Alias.isRead, endsBlank, Bool.and_eq_true, beq_iff_eq, Option.map_none]

/-- The alias at the end of a text, if the text is cut there. -/
def aliased (t : Text) : Text := ((Text.cut? " as " t).map fun (_, name) => Text.trim name).getD t

theorem aliased_isName {t : Text} (h : IsName t) : aliased t = t := by
  rw [aliased, cut?_isName h]
  rfl

theorem aliased_alias {word : Text} (hword : ' ' ∉ word) (a : Alias) :
    aliased (word ++ a.text) = if a.isRead then a.name.1 else word ++ a.text := by
  rw [aliased, Text.cut?_word hword, cut?_alias]
  cases a.isRead with
  | true => exact Text.trim_blank_append (blank_tail a.behind.2.1) (inked_of_isName (isName a.name))
  | false => rfl

theorem bracedSymbol?_eq (part : Text) : Import.bracedSymbol? part =
    if (unmark (Text.trim part)).isEmpty then none else some (aliased (unmark (Text.trim part))) := rfl

/-- The mark is dropped if a blank stands behind it. -/
theorem unmark_mark (gap : Gap) {t : Text} (ht : t.Inked) :
    unmark ("type" ++ (gap.1 ++ t)) = if opensBlank gap.1 then t else "type" ++ (gap.1 ++ t) := by
  rw [unmark, dropPrefix?_mark]
  split
  · exact Text.trim_blank_append (blank_tail gap.2.1) ht
  · rfl

/-- The name that a part between the braces is read as. -/
def between? (part : Text) : Option Text := (Import.bracedSymbol? part).filter Import.isIdentifier

theorem inked_alias {t : Text} (ht : t.Inked) (a : Alias) : (t ++ a.text).Inked := by
  have hname := inked_of_isName (isName a.name)
  have htext : t ++ a.text = t ++ ((a.before.1 ++ ("as" ++ a.behind.1)) ++ a.name.1) := by
    simp [Alias.text]
  rw [htext]
  exact inked_append ht hname

theorem inked_mark (gap : Gap) {t : Text} (ht : t.Inked) : Text.Inked ("type" ++ (gap.1 ++ t)) :=
  inked_append (inked_of_isName isName_type) ht

/-- What stands behind the mark of a specifier. -/
def Specifier.core (s : Specifier) : Text := s.name.1 ++ s.alias?.elim [] Alias.text

theorem Specifier.inked_core (s : Specifier) : s.core.Inked := by
  have hname := inked_of_isName (isName s.name)
  unfold core
  cases s.alias? with
  | none => exact (List.append_nil s.name.1).symm ▸ hname
  | some a => exact inked_alias hname a

/-- A trimmed part is read once its mark is dropped. -/
theorem between?_eq {before t core behind : Text} (hbefore : Blank before) (ht : t.Inked)
    (hbehind : Blank behind) (hunmark : unmark t = core) (hne : core ≠ []) :
    between? (before ++ (t ++ behind)) = (some (aliased core)).filter Import.isIdentifier := by
  rw [between?, bracedSymbol?_eq, Text.trim_blank_inked hbefore ht hbehind, hunmark,
    if_neg (by simpa using hne)]

theorem isIdentifier_alias (s : Text) (a : Alias) : Import.isIdentifier (s ++ a.text) = false :=
  isIdentifier_of_gap a.before s _

/-- A core is read as its local name if its alias is read, or as no identifier. -/
theorem Specifier.filter_aliased_core (s : Specifier) :
    (some (aliased s.core)).filter Import.isIdentifier =
      if s.alias?.all Alias.isRead then some s.localName else none := by
  unfold core localName
  cases s.alias? with
  | none =>
    rw [Option.elim_none, List.append_nil, aliased_isName (isName s.name)]
    simp [s.name.2]
  | some a =>
    rw [Option.elim_some, aliased_alias (blank_not_mem_isName (isName s.name))]
    by_cases hread : a.isRead = true
    · simp [hread, a.name.2]
    · simp [hread, isIdentifier_alias]

theorem Alias.inked_rest (a : Alias) : a.rest.Inked :=
  inked_append (inked_of_isName isName_as) (inked_of_isName (isName a.name))

/-- An alias without a name in front of it is read as no name. -/
theorem filter_aliased_rest (a : Alias) :
    (some (aliased a.rest)).filter Import.isIdentifier = none := by
  have hrest : Import.isIdentifier a.rest = false := isIdentifier_of_gap a.behind _ _
  rw [aliased, cut?_rest]
  simp [hrest]

theorem Alias.trim_tail (a : Alias) : Text.trim a.text.tail = a.rest := by
  change Text.trim (a.before.1 ++ a.rest).tail = _
  rw [List.tail_append_of_ne_nil a.before.2.2]
  exact Text.trim_blank_append (blank_tail a.before.2.1) a.inked_rest

theorem isIdentChar_of_head?_alias (alias? : Option Alias) :
    ∀ c, (alias?.elim [] Alias.text).head? = some c → isIdentChar c = false := by
  cases alias? with
  | none => nofun
  | some a => exact isIdentChar_of_head?_gap a.before a.rest

/-- A name `type` with an alias behind a blank is taken for a mark. -/
theorem unmark_core (s : Specifier) : unmark s.core =
    if s.name.1 = "type".toList ∧ s.alias?.any (fun a => opensBlank a.before.1) = true then
      s.alias?.elim [] Alias.rest
    else s.core := by
  unfold unmark Specifier.core
  rw [dropPrefix?_name (isName s.name) (isIdentChar_of_head?_alias s.alias?)]
  cases s.alias? with
  | none => simp [opensBlank]
  | some a =>
    have hopens : opensBlank a.text = opensBlank a.before.1 := opensBlank_append a.before.2.2 _
    simp only [Option.elim_some, Option.any_some, hopens]
    split
    · exact a.trim_tail
    · rfl

/-- The alias behind a mark that is not told: the first one, which may be the mark's own. -/
theorem cut?_mark (gap : Gap) (t : Text) :
    (Text.cut? " as " ("type" ++ (gap.1 ++ t))).map (fun (_, name) => Text.trim name) =
      if gap.1.getLast? = some ' ' ∧ "as ".toList <+: t then some (Text.trim (t.drop 3))
      else (Text.cut? " as " t).map fun (_, name) => Text.trim name := by
  rw [Text.cut?_word (by decide), Text.cut?_gap gap.2.1 gap.2.2, Option.map_map]
  split
  · rfl
  · rw [Option.map_map]
    rfl

/-- Behind a mark that is not told, an alias is found as in the core, unless the mark and a name `as` are
taken for the name and its alias. -/
theorem filter_aliased_mark (gap : Gap) (s : Specifier) :
    (some (aliased ("type" ++ (gap.1 ++ s.core)))).filter Import.isIdentifier =
      if s.alias?.any (fun a => a.isRead && !(endsBlank gap.1 && s.name.1 == "as".toList &&
        opensBlank a.before.1)) then some s.localName else none := by
  have hstarts : "as ".toList <+: s.core ↔ _ :=
    prefix_blank_iff isName_as (isName s.name) (isIdentChar_of_head?_alias s.alias?)
  have hwhole : Import.isIdentifier ("type" ++ (gap.1 ++ s.core)) = false := isIdentifier_of_gap gap _ _
  rw [aliased, cut?_mark]
  simp only [hstarts]
  generalize "type".toList ++ (gap.1 ++ s.core) = whole at hwhole ⊢
  cases halias : s.alias? with
  | none =>
    have hcore : s.core = s.name.1 := by rw [Specifier.core, halias]; exact List.append_nil _
    rw [hcore, cut?_isName (isName s.name)]
    simp [opensBlank, hwhole]
  | some a =>
    have hcore : s.core = s.name.1 ++ a.text := by rw [Specifier.core, halias]; rfl
    have hlocal : s.localName = a.name.1 := by rw [Specifier.localName, halias]; rfl
    have hopens : opensBlank a.text = opensBlank a.before.1 := opensBlank_append a.before.2.2 _
    simp only [Option.elim_some, Option.any_some, hopens, hlocal]
    by_cases htaken : gap.1.getLast? = some ' ' ∧ s.name.1 = "as".toList ∧ opensBlank a.before.1 = true
    · have hdrop : Text.trim (s.core.drop 3) = a.rest := by
        rw [hcore, htaken.2.1, ← a.trim_tail, ← List.drop_one]
        rfl
      have hrest : Import.isIdentifier a.rest = false := isIdentifier_of_gap a.behind _ _
      simp [htaken, hdrop, hrest, endsBlank]
    · have hlegible : (endsBlank gap.1 && s.name.1 == "as".toList && opensBlank a.before.1) = false := by
        rw [Bool.eq_false_iff]
        simpa [endsBlank, and_assoc] using htaken
      rw [if_neg htaken, hcore, Text.cut?_word (blank_not_mem_isName (isName s.name)), cut?_alias, hlegible]
      by_cases hread : a.isRead = true
      · have htrim := Text.trim_blank_append (blank_tail a.behind.2.1) (inked_of_isName (isName a.name))
        simp [hread, htrim, a.name.2]
      · simp [hread, hwhole]

/-- What a part between the braces is read as. -/
theorem between?_specifier (s : Specifier) {before behind : Text} (hbefore : Blank before)
    (hbehind : Blank behind) :
    between? (before ++ (s.text ++ behind)) = if s.isRead then some s.localName else none := by
  have hcore := s.inked_core
  cases hmark : s.mark? with
  | none =>
    have htext : s.text = s.core := by rw [Specifier.text, hmark]; rfl
    have hunmark := unmark_core s
    by_cases htaken : s.name.1 = "type".toList ∧ s.alias?.any (fun a => opensBlank a.before.1) = true
    · obtain ⟨a, halias, hopens⟩ := (Option.any_eq_true _ _).mp htaken.2
      rw [if_pos htaken, halias, Option.elim_some] at hunmark
      rw [htext, between?_eq hbefore hcore hbehind hunmark a.inked_rest.ne_nil, filter_aliased_rest]
      simp [Specifier.isRead, hmark, halias, htaken.1, hopens]
    · rw [if_neg htaken] at hunmark
      rw [htext, between?_eq hbefore hcore hbehind hunmark hcore.ne_nil, s.filter_aliased_core]
      cases halias : s.alias? with
      | none => simp [Specifier.isRead, hmark, halias]
      | some a =>
        have hname : (s.name.1 == "type".toList && opensBlank a.before.1) = false := by
          rw [Bool.eq_false_iff]
          simpa [halias] using htaken
        simp only [Specifier.isRead, hmark, halias, hname, Option.all_some, Bool.not_false, Bool.and_true]
  | some gap =>
    have htext : s.text = "type" ++ (gap.1 ++ s.core) := by
      rw [Specifier.text, hmark]
      exact List.append_assoc _ _ _
    have hunmark := unmark_mark gap hcore
    rw [htext]
    by_cases hopens : opensBlank gap.1 = true
    · rw [if_pos hopens] at hunmark
      rw [between?_eq hbefore (inked_mark gap hcore) hbehind hunmark hcore.ne_nil, s.filter_aliased_core]
      cases halias : s.alias? with
      | none => simp [Specifier.isRead, hmark, halias, hopens]
      | some a => simp [Specifier.isRead, hmark, halias, hopens]
    · rw [if_neg hopens] at hunmark
      rw [between?_eq hbefore (inked_mark gap hcore) hbehind hunmark (inked_mark gap hcore).ne_nil,
        filter_aliased_mark]
      cases halias : s.alias? with
      | none => simp [Specifier.isRead, hmark, halias, hopens]
      | some a => simp only [Specifier.isRead, hmark, halias, hopens, Option.any_some, Bool.false_or]

/-! ## Names in front of the braces -/

/-- The name that a part in front of the braces is read as. -/
def outside? (part : Text) : Option Text := (Import.plainSymbol? part).filter Import.isIdentifier

theorem outside?_blank {t : Text} (h : Blank t) : outside? t = none := by
  simp [outside?, Import.plainSymbol?, Text.trim_of_blank h]

/-- A part that is no alias is read as it stands. -/
theorem outside?_inked {before t behind : Text} (hbefore : Blank before) (ht : t.Inked)
    (hbehind : Blank behind) (hhead : t.head? ≠ some '*') :
    outside? (before ++ (t ++ behind)) = (some t).filter Import.isIdentifier := by
  have hne : t.isEmpty = false := by simpa using ht.ne_nil
  simp [outside?, Import.plainSymbol?, Text.trim_blank_inked hbefore ht hbehind, hne, hhead]

theorem head?_isName {t : Text} (h : IsName t) (u : Text) : (t ++ u).head? ≠ some '*' := by
  obtain ⟨c, rest, rfl⟩ := List.exists_cons_of_ne_nil h.1
  rintro hc
  obtain rfl := Option.some.inj hc
  exact absurd (h.2 '*' List.mem_cons_self) (by decide +kernel)

theorem outside?_name {before behind : Text} (hbefore : Blank before) (hbehind : Blank behind)
    (name : Name) : outside? (before ++ (name.1 ++ behind)) = some name.1 := by
  have hhead := head?_isName (isName name) []
  rw [List.append_nil] at hhead
  rw [outside?_inked hbefore (inked_of_isName (isName name)) hbehind hhead]
  simp [name.2]

theorem inked_module (a : Alias) : Text.Inked ('*' :: a.text) :=
  inked_alias (t := ['*']) ⟨by simp, by simp [isSpace], by simp [isSpace]⟩ a

theorem outside?_module {before behind : Text} (hbefore : Blank before) (hbehind : Blank behind)
    (a : Alias) :
    outside? (before ++ ('*' :: a.text ++ behind)) = if a.isRead then some a.name.1 else none := by
  have hcut : Text.cut? " as " ('*' :: a.text) = _ := @Text.cut?_word ['*'] a.text (by decide)
  rw [outside?, Import.plainSymbol?]
  simp only [Text.trim_blank_inked hbefore (inked_module a) hbehind, hcut, cut?_alias]
  by_cases hread : a.isRead = true
  · have htrim := Text.trim_blank_append (blank_tail a.behind.2.1) (inked_of_isName (isName a.name))
    simp [hread, htrim, a.name.2]
  · simp [hread]

/-- Nothing is read behind a mark that is not told. -/
theorem outside?_mark (gap : Gap) {t behind : Text} (ht : t.Inked) (hbehind : Blank behind) :
    outside? ("type" ++ (gap.1 ++ (t ++ behind))) = none := by
  have hpart : "type".toList ++ (gap.1 ++ (t ++ behind)) =
      [] ++ (("type".toList ++ (gap.1 ++ t)) ++ behind) := by
    simp
  rw [hpart, @outside?_inked [] _ _ blank_nil (inked_mark gap ht) hbehind (head?_isName isName_type _)]
  have hwhole : Import.isIdentifier ("type" ++ (gap.1 ++ t)) = false := isIdentifier_of_gap gap _ _
  generalize "type".toList ++ (gap.1 ++ t) = whole at hwhole
  simp [hwhole]

/-! ## Cutting a clause -/

/-- What a clause is read as, once its mark has been dropped. -/
def symbols (t : Text) : List Text :=
  match Text.cut? ['{'] t with
  | none => (Text.splitOn ',' t).filterMap outside?
  | some (head, body) =>
    (Text.splitOn ',' head).filterMap outside? ++
      (Text.splitOn ',' (body.takeWhile (· != '}'))).filterMap between?

theorem clauseSymbols_eq (clause : Text) : Import.clauseSymbols clause =
    symbols ((Text.dropPrefix? "type " (Text.trim clause)).getD (Text.trim clause)) := by
  rw [Import.clauseSymbols]
  generalize (Text.dropPrefix? "type " (Text.trim clause)).getD (Text.trim clause) = t
  have hcut : Text.cut? "\x7b" t = Text.cut? ['{'] t := rfl
  unfold symbols
  rw [hcut]
  cases Text.cut? ['{'] t with
  | none => exact List.filter_filterMap
  | some found =>
    simp only [List.filter_append, List.filter_filterMap]
    rfl

theorem symbols_uncut {t : Text} (h : Uncut t) : symbols t = [t].filterMap outside? := by
  have hcut : Text.cut? ['{'] t = none := by
    rw [Text.cut?_eq_none]
    exact fun hfound => h.2.1 (hfound.subset List.mem_cons_self)
  rw [symbols, hcut, Text.splitOn_of_not_mem h.1]

/-- A part in front of a comma is read on its own. -/
theorem symbols_comma {s : Text} (hs : Uncut s) (t : Text) :
    symbols (s ++ ',' :: t) = [s].filterMap outside? ++ symbols t := by
  have hfirst : '{' ∉ s ++ [','] := by simpa using hs.2.1
  have hsplit : ∀ head, (Text.splitOn ',' (s ++ ',' :: head)).filterMap outside? =
      [s].filterMap outside? ++ (Text.splitOn ',' head).filterMap outside? := by
    intro head
    rw [Text.splitOn_append_cons hs.1, ← List.singleton_append, List.filterMap_append]
  rw [symbols, List.append_cons, Text.cut?_skip hfirst, symbols]
  cases Text.cut? ['{'] t with
  | none => simp [hsplit]
  | some found => simp [hsplit]

theorem uncut_alias (a : Alias) : Uncut a.text :=
  uncut_append (uncut_blank a.before.2.1) (uncut_append (uncut_isName isName_as)
    (uncut_append (uncut_blank a.behind.2.1) (uncut_isName (isName a.name))))

theorem uncut_specifier (s : Specifier) : Uncut s.text := by
  have hmark : Uncut (markText s.mark?) := by
    cases s.mark? with
    | none => exact ⟨nofun, nofun, nofun⟩
    | some gap => exact uncut_append (uncut_isName isName_type) (uncut_blank gap.2.1)
  have halias : Uncut (s.alias?.elim [] Alias.text) := by
    cases s.alias? with
    | none => exact ⟨nofun, nofun, nofun⟩
    | some a => exact uncut_alias a
  exact uncut_append hmark (uncut_append (uncut_isName (isName s.name)) halias)

theorem uncut_part (part : Part) : Uncut part.text := by
  have hspecifier : Uncut (part.specifier?.elim [] Specifier.text) := by
    cases part.specifier? with
    | none => exact ⟨nofun, nofun, nofun⟩
    | some s => exact uncut_specifier s
  exact uncut_append (uncut_blank part.before.2) (uncut_append hspecifier (uncut_blank part.behind.2))

theorem between?_part (part : Part) : between? part.text =
    (part.specifier?.filter Specifier.isRead).map Specifier.localName := by
  unfold Part.text
  cases part.specifier? with
  | none =>
    have hblank : Blank (part.before.1 ++ part.behind.1) := fun c hc =>
      (List.mem_append.mp hc).elim (part.before.2 c) (part.behind.2 c)
    rw [Option.elim_none, List.nil_append, between?, bracedSymbol?_eq, Text.trim_of_blank hblank]
    rfl
  | some s =>
    rw [Option.elim_some, between?_specifier s part.before.2 part.behind.2]
    by_cases hread : s.isRead = true
    · rw [if_pos hread, Option.filter_some_pos hread]
      rfl
    · rw [if_neg hread, Option.filter_some_neg (by simpa using hread)]
      rfl

theorem filterMap_between? (parts : List Part) :
    (parts.map Part.text).filterMap between? = kept (boundBetween parts) := by
  induction parts with
  | nil => rfl
  | cons part parts ih =>
    rw [List.map_cons, List.filterMap_cons, between?_part, ih]
    unfold boundBetween
    rw [List.filterMap_cons]
    cases part.specifier? with
    | none => rfl
    | some s =>
      by_cases hread : s.isRead = true
      · simp [kept, hread, Option.filter_some]
      · simp [kept, hread, Option.filter_some]

/-- The braces end a clause, and the parts between them are read one by one. -/
theorem symbols_braces {t : Text} (ht : Uncut t) (parts : List Part) :
    symbols (t ++ bracesText parts) = [t].filterMap outside? ++ kept (boundBetween parts) := by
  have hinside : ∀ c ∈ Text.join [','] (parts.map Part.text), (c != '}') = true := by
    intro c hc
    rw [bne_iff_ne]
    rintro rfl
    rcases Text.mem_join hc with hcomma | ⟨text, htext, hmem⟩
    · exact absurd hcomma (by decide)
    · obtain ⟨part, -, rfl⟩ := List.mem_map.mp htext
      exact (uncut_part part).2.2 hmem
  have htake : (Text.join [','] (parts.map Part.text) ++ ['}']).takeWhile (· != '}') =
      Text.join [','] (parts.map Part.text) :=
    takeWhile_append_of_stop hinside (by simp)
  rw [symbols, bracesText, Text.cut?_of_not_mem ht.2.1]
  simp only
  rw [htake, Text.splitOn_of_not_mem ht.1, ← filterMap_between?]
  cases parts with
  | nil => rfl
  | cons part parts =>
    rw [Text.splitOn_join (by simp)]
    intro text htext
    obtain ⟨part, -, rfl⟩ := List.mem_map.mp htext
    exact (uncut_part part).1

/-! ## Reading a clause -/

theorem Body.inked (body : Body) : body.text.Inked := by
  have hbrace : ∀ parts, (bracesText parts).Inked := by
    intro parts
    exact @inked_append ['{'] _ ['}'] ⟨by simp, by simp [isSpace], by simp [isSpace]⟩
      ⟨by simp, by simp [isSpace], by simp [isSpace]⟩
  cases body with
  | default name => exact inked_of_isName (isName name)
  | module a => exact inked_module a
  | braces parts => exact hbrace parts
  | defaultModule name before behind a =>
    have htext : (Body.defaultModule name before behind a).text =
        name.1 ++ ((before.1 ++ ',' :: behind.1) ++ '*' :: a.text) := by simp [Body.text]
    exact htext ▸ inked_append (inked_of_isName (isName name)) (inked_module a)
  | defaultBraces name before behind parts =>
    have htext : (Body.defaultBraces name before behind parts).text =
        name.1 ++ ((before.1 ++ ',' :: behind.1) ++ bracesText parts) := by simp [Body.text]
    exact htext ▸ inked_append (inked_of_isName (isName name)) (hbrace parts)

theorem Clause.trim_text (c : Clause) : Text.trim c.text = markText c.mark? ++ c.body.text := by
  have hinked : (markText c.mark? ++ c.body.text).Inked := by
    cases c.mark? with
    | none => exact c.body.inked
    | some gap =>
      have htext : markText (some gap) ++ c.body.text = "type" ++ (gap.1 ++ c.body.text) :=
        List.append_assoc _ _ _
      exact htext ▸ inked_mark gap c.body.inked
  rw [Clause.text, ← List.append_assoc (markText c.mark?)]
  exact Text.trim_blank_inked c.before.2 hinked c.behind.2

theorem kept_singleton (b : Bound) : kept [b] = if b.isRead then [b.name] else [] := by
  unfold kept
  rw [List.filter_cons]
  split <;> rfl

theorem kept_append (bs more : List Bound) : kept (bs ++ more) = kept bs ++ kept more := by
  simp only [kept, List.filter_append, List.map_append]

/-- A part that is read as one name or as none. -/
theorem filterMap_outside? {part : Text} {b : Bound}
    (h : outside? part = if b.isRead then some b.name else none) : [part].filterMap outside? = kept [b] := by
  rw [List.filterMap_cons, h, kept_singleton]
  cases b.isRead <;> rfl

theorem uncut_module (a : Alias) : Uncut ('*' :: a.text) :=
  @uncut_append ['*'] a.text ⟨by decide, by decide, by decide⟩ (uncut_alias a)

theorem symbols_module {behind : Text} (hbehind : Blank behind) (a : Alias) :
    symbols (behind ++ '*' :: a.text) = kept [⟨a.name.1, a.isRead⟩] := by
  have hmodule := @outside?_module behind [] hbehind blank_nil a
  rw [List.append_nil] at hmodule
  rw [symbols_uncut (uncut_append (uncut_blank hbehind) (uncut_module a))]
  exact filterMap_outside? hmodule

theorem symbols_blank_braces {behind : Text} (hbehind : Blank behind) (parts : List Part) :
    symbols (behind ++ bracesText parts) = kept (boundBetween parts) := by
  rw [symbols_braces (uncut_blank hbehind), List.filterMap_cons, outside?_blank hbehind]
  rfl

/-- A body behind a text that decides whether its first part in front of the braces is read. -/
theorem symbols_behind {front : Text} {isFirstRead : Bool} (hfront : Uncut front)
    (hname : ∀ (name : Name) (before : Space),
      outside? (front ++ (name.1 ++ before.1)) = if isFirstRead then some name.1 else none)
    (hmodule : ∀ a : Alias,
      outside? (front ++ '*' :: a.text) = if isFirstRead && a.isRead then some a.name.1 else none)
    (hbraces : outside? front = if isFirstRead then none else some "type".toList) (body : Body) :
    symbols (front ++ body.text) =
      (if isFirstRead then [] else body.stray) ++ kept (body.bound isFirstRead) := by
  have hdefault : ∀ (name : Name) (before : Space) (t : Text),
      symbols (front ++ (name.1 ++ (before.1 ++ ',' :: t))) =
        kept [⟨name.1, isFirstRead⟩] ++ symbols t := by
    intro name before t
    have huncut := uncut_append hfront (uncut_append (uncut_isName (isName name)) (uncut_blank before.2))
    have htext : front ++ (name.1 ++ (before.1 ++ ',' :: t)) =
        (front ++ (name.1 ++ before.1)) ++ ',' :: t := by simp
    rw [htext, symbols_comma huncut, filterMap_outside? (b := ⟨name.1, isFirstRead⟩) (hname name before)]
  have hstray : ∀ names, body.stray = [] → (if isFirstRead then [] else body.stray) ++ names = names := by
    intro names hstray
    rw [hstray, ite_self, List.nil_append]
  cases body with
  | default name =>
    have hread := hname name ⟨[], blank_nil⟩
    rw [List.append_nil] at hread
    rw [hstray _ rfl, Body.text,
      symbols_uncut (uncut_append hfront (uncut_isName (isName name)))]
    exact filterMap_outside? hread
  | module a =>
    rw [hstray _ rfl, Body.text, symbols_uncut (uncut_append hfront (uncut_module a))]
    exact filterMap_outside? (hmodule a)
  | braces parts =>
    rw [Body.text, symbols_braces hfront, List.filterMap_cons, hbraces]
    cases isFirstRead <;> rfl
  | defaultModule name before behind a =>
    rw [hstray _ rfl, Body.text, hdefault, symbols_module behind.2, ← kept_append]
    rfl
  | defaultBraces name before behind parts =>
    rw [hstray _ rfl, Body.text, hdefault, symbols_blank_braces behind.2, ← kept_append]
    rfl

/-- At the start of a clause and behind a mark that is told, the first part is read. -/
theorem symbols_blank {front : Text} (hfront : Blank front) (body : Body) :
    symbols (front ++ body.text) = kept (body.bound true) := by
  have hmodule : ∀ a : Alias,
      outside? (front ++ '*' :: a.text) = if true && a.isRead then some a.name.1 else none := by
    intro a
    have hread := @outside?_module front [] hfront blank_nil a
    rwa [List.append_nil] at hread
  exact @symbols_behind front true (uncut_blank hfront)
    (fun name before => outside?_name hfront before.2 name) hmodule (outside?_blank hfront) body

theorem outside?_type {behind : Text} (hbehind : Blank behind) :
    outside? ("type" ++ behind) = some "type".toList :=
  @outside?_name [] behind blank_nil hbehind ⟨"type".toList, by decide +kernel⟩

/-- Behind a mark that is not told, the first part is not read. -/
theorem symbols_mark (gap : Gap) (body : Body) :
    symbols ("type" ++ (gap.1 ++ body.text)) = body.stray ++ kept (body.bound false) := by
  have hname : ∀ (name : Name) (before : Space),
      outside? (("type".toList ++ gap.1) ++ (name.1 ++ before.1)) = none := by
    intro name before
    rw [List.append_assoc]
    exact outside?_mark gap (inked_of_isName (isName name)) before.2
  have hmodule : ∀ a : Alias, outside? (("type".toList ++ gap.1) ++ '*' :: a.text) = none := by
    intro a
    have hread := @outside?_mark gap _ [] (inked_module a) blank_nil
    rwa [List.append_nil, ← List.append_assoc] at hread
  rw [← List.append_assoc]
  exact @symbols_behind _ false (uncut_append (uncut_isName isName_type) (uncut_blank gap.2.1))
    hname hmodule (outside?_type gap.2.1) body

/-- Nothing is read of white space in front of a comma. -/
theorem symbols_comma_blank {before : Text} (hbefore : Blank before) (t : Text) :
    symbols (before ++ ',' :: t) = symbols t := by
  rw [symbols_comma (uncut_blank hbefore), List.filterMap_cons, outside?_blank hbefore]
  rfl

theorem dropPrefix?_default (name : Name) (before : Space) (t : Text) :
    Text.dropPrefix? "type " (name.1 ++ (before.1 ++ ',' :: t)) =
      if name.1 = "type".toList ∧ opensBlank before.1 = true then some (before.1.tail ++ ',' :: t)
      else none := by
  obtain ⟨before, hblank⟩ := before
  cases before with
  | nil =>
    rw [List.nil_append, dropPrefix?_name (isName name) (by simp; decide +kernel)]
    simp [opensBlank]
  | cons d before =>
    exact dropPrefix?_name (isName name) (isIdentChar_of_head?_gap ⟨d :: before, hblank, by simp⟩ _)

/-- A clause without a mark: only a default name that is taken for one is not read. -/
theorem symbols_unmarked (body : Body) :
    symbols ((Text.dropPrefix? "type " body.text).getD body.text) =
      kept (body.bound !body.opensAsMark) := by
  have hfirst : symbols body.text = kept (body.bound true) := @symbols_blank [] blank_nil body
  have hdefault : ∀ (name : Name) (before : Space) (t : Text),
      body.text = name.1 ++ (before.1 ++ ',' :: t) →
      symbols ((Text.dropPrefix? "type " body.text).getD body.text) =
        if name.1 == "type".toList && opensBlank before.1 then symbols t else symbols body.text := by
    intro name before t htext
    rw [htext, dropPrefix?_default]
    by_cases htaken : name.1 = "type".toList ∧ opensBlank before.1 = true
    · rw [if_pos htaken, if_pos (by simpa using htaken)]
      exact symbols_comma_blank (blank_tail before.2) t
    · rw [if_neg htaken, if_neg (by simpa using htaken)]
      rfl
  cases body with
  | default name =>
    have hnone := dropPrefix?_name (t := []) (isName name) nofun
    rw [List.append_nil, if_neg (by simp [opensBlank])] at hnone
    rw [Body.text, hnone]
    exact hfirst
  | module a => exact hfirst
  | braces parts => exact hfirst
  | defaultModule name before behind a =>
    rw [hdefault name before _ rfl, hfirst, symbols_module behind.2, Body.opensAsMark]
    cases name.1 == "type".toList && opensBlank before.1 <;> rfl
  | defaultBraces name before behind parts =>
    rw [hdefault name before _ rfl, hfirst, symbols_blank_braces behind.2, Body.opensAsMark]
    cases name.1 == "type".toList && opensBlank before.1 <;> rfl

/-- Nothing is lost of names that are all read. -/
theorem kept_eq_iff (bs : List Bound) : kept bs = bs.map Bound.name ↔ ∀ b ∈ bs, b.isRead = true := by
  constructor
  · intro h
    have hlength := congrArg List.length h
    rw [kept, List.length_map, List.length_map] at hlength
    exact List.length_filter_eq_length_iff.mp hlength
  · intro h
    rw [kept, List.filter_eq_self.mpr h]

theorem clauseSymbols_eq_stray_append (c : Clause) :
    Import.clauseSymbols c.text = c.stray ++ kept c.bound := by
  have hbody := symbols_unmarked c.body
  rw [clauseSymbols_eq, c.trim_text]
  unfold Clause.stray Clause.bound Clause.readsFirst
  cases c.mark? with
  | none => exact hbody
  | some gap =>
    have htext : markText (some gap) ++ c.body.text = "type" ++ (gap.1 ++ c.body.text) :=
      List.append_assoc _ _ _
    rw [htext, dropPrefix?_mark]
    by_cases hopens : opensBlank gap.1 = true
    · rw [if_pos hopens, Option.getD_some, symbols_blank (blank_tail gap.2.1)]
      simp [hopens]
    · rw [if_neg hopens, Option.getD_none, symbols_mark]
      simp [hopens]

/-- The names read of a clause: its local names whose mark and alias are told, in their order, behind a
stray mark if the braces follow one. So they are its local names exactly if each of them is read. -/
theorem clauseSymbols_text (c : Clause) :
    Import.clauseSymbols c.text = c.stray ++ kept c.bound ∧
      (c.stray = [] →
        (Import.clauseSymbols c.text = c.localNames ↔ ∀ b ∈ c.bound, b.isRead = true)) := by
  refine ⟨clauseSymbols_eq_stray_append c, fun hstray => ?_⟩
  rw [clauseSymbols_eq_stray_append, hstray, List.nil_append]
  exact kept_eq_iff c.bound

/-- One blank, as white space between two words. -/
def blank : Gap := ⟨[' '], by simp [Blank, isSpace], by simp⟩

/-- One blank, as white space where none is needed. -/
def space : Space := ⟨[' '], blank.2.1⟩

def newline : Gap := ⟨['\n'], by simp [Blank, isSpace], by simp⟩

def typeName : Name := ⟨"type".toList, by decide +kernel⟩
def nameA : Name := ⟨['a'], by decide +kernel⟩
def nameB : Name := ⟨['b'], by decide +kernel⟩

/-- The clause `type a, { type b as type }`. -/
def markedClause : Clause where
  before := space
  mark? := some blank
  body := .defaultBraces nameA ⟨[], blank_nil⟩ space
    [⟨space, some ⟨some blank, nameB, some ⟨blank, blank, typeName⟩⟩, space⟩]
  behind := space

theorem clauseSymbols_text_marked :
    Import.clauseSymbols markedClause.text = ["a".toList, "type".toList] := by
  have hiff := (clauseSymbols_text markedClause).2 (by decide)
  exact hiff.mpr (by decide)

/-- A specifier between two blanks and braces. -/
def clauseOf (s : Specifier) : Clause where
  before := ⟨[], blank_nil⟩
  mark? := none
  body := .braces [⟨space, some s, space⟩]
  behind := ⟨[], blank_nil⟩

/-- An alias of a name spelled like the mark is lost, and so is one with a line break behind `as`. -/
theorem clauseSymbols_drops_local_names :
    (∃ c : Clause, c.text = "\x7b type as b \x7d" ∧ c.localNames = ["b".toList] ∧
      Import.clauseSymbols c.text = []) ∧
    (∃ c : Clause, c.text = "\x7b a as\nb \x7d" ∧ c.localNames = ["b".toList] ∧
      Import.clauseSymbols c.text = []) := by
  refine ⟨⟨clauseOf ⟨none, typeName, some ⟨blank, blank, nameB⟩⟩, by decide, by decide, by decide +kernel⟩,
    ⟨clauseOf ⟨none, nameA, some ⟨blank, newline, nameB⟩⟩, by decide, by decide, by decide +kernel⟩⟩

end ImportClause

end ComponentAudit
