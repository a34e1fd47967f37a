import ComponentAudit.Proofs.Script.Recogniser
import ComponentAudit.Script.Function
import ComponentAudit.Script.Variable

/-! # Declared names

Whatever a script is found to declare has a name that is made of identifier characters and that stands
in the script at the offset given for it (`NamedAt`). A variable's name is the whole run of identifier
characters at its place, and it is no key of a pattern (`BoundAt`). -/

namespace ComponentAudit

/-- A name that stands in a text at an offset. -/
def NamedAt (t name : Text) (offset : Nat) : Prop := IsName name ∧ name <+: t.drop offset

theorem NamedAt.lt {t name : Text} {offset : Nat} (h : NamedAt t name offset) :
    offset + name.length ≤ t.length ∧ offset < t.length := by
  have hlen := h.2.length_le
  have hpos := List.length_pos_iff.mpr h.1.1
  rw [List.length_drop] at hlen
  omega

namespace Cursor

theorem ReadsName.namedAt {c behind : Cursor} {name : Text} (h : c.ReadsName name behind) :
    NamedAt c.text name c.offset := by
  refine ⟨h.isName, ?_⟩
  rw [← after_of_text rfl, h.reads.after]
  exact List.prefix_append _ _

/-- An identifier stands where it was read. -/
theorem namedAt_identifier? {c stop : Cursor} {name t : Text} (ht : c.text = t)
    (h : c.identifier? = some (name, stop)) : NamedAt t name c.offset :=
  ht ▸ (identifier?_eq_some.mp h).2.namedAt

/-- A name that a declaration binds: a name with a colon behind it is no key of a pattern, so it stands
behind a keyword or a comma. -/
structure Binds (c : Cursor) (name : Text) (behind : Cursor) : Prop where
  readsName : c.ReadsName name behind
  followsGap : behind.nextInk? = some ':' → c.FollowsGap

end Cursor

/-- A name that a declaration of a script binds at an offset. -/
def BoundAt (script name : Text) (offset : Nat) : Prop :=
  ∃ behind, (Cursor.seek script offset).Binds name behind

theorem Cursor.Binds.boundAt {c behind : Cursor} {name script : Text} (h : c.Binds name behind)
    (htext : c.text = script) : BoundAt script name c.offset :=
  ⟨behind, htext ▸ c.seek_offset.symm ▸ h⟩

theorem BoundAt.namedAt {script name : Text} {offset : Nat} (h : BoundAt script name offset) :
    NamedAt script name offset := by
  obtain ⟨behind, hbinds⟩ := h
  refine ⟨hbinds.readsName.isName, ?_⟩
  change name <+: (Cursor.seek script offset).after
  rw [hbinds.readsName.reads.after]
  exact List.prefix_append _ _

/-! ## Bindings -/

theorem Statement.leads_endFrom (quote : Option Char) (depth : Nat) (before after : Text) :
    Cursor.Leads ⟨before, after⟩ (endFrom quote depth before after) := by
  have hstep := Cursor.leads_cons
  fun_induction endFrom quote depth before after with
  | case1 | case7 | case9 | case10 => exact .refl _
  | case2 => exact hstep _ _ _
  | case3 _ _ _ _ _ _ _ ih => exact ((hstep _ _ _).trans (hstep _ _ _)).trans ih
  | case4 | case5 | case6 | case8 | case11 => exact (hstep _ _ _).trans ‹_›

theorem Statement.leads_stop (c : Cursor) : c.Leads (stop c) := leads_endFrom none 0 c.before c.after

theorem Statement.text_stop (c : Cursor) : (stop c).text = c.text := (leads_stop c).text

/-- A closing bracket stands where one is found. -/
theorem Bracket.closingFrom_eq_some {opener closer prev : Char} {depth : Int} {quote : Option Char}
    {offset size : Nat} {t : Text} (h : closingFrom opener closer depth quote prev offset t = some size) :
    ∃ inside rest, t = inside ++ closer :: rest ∧ size = offset + inside.length := by
  induction t generalizing depth quote prev offset with
  | nil => cases quote <;> cases h
  | cons c t ih =>
    have hnext : ∀ {depth quote}, closingFrom opener closer depth quote c (offset + 1) t = some size →
        ∃ inside rest, c :: t = inside ++ closer :: rest ∧ size = offset + inside.length := by
      intro depth quote h
      obtain ⟨inside, rest, rfl, rfl⟩ := ih h
      exact ⟨c :: inside, rest, rfl, by simp; omega⟩
    cases quote with
    | some q => exact hnext h
    | none =>
      rw [closingFrom] at h
      split at h
      · exact hnext h
      · split at h
        · exact hnext h
        · split at h
          · rename_i hcloser
            split at h
            · obtain rfl := Option.some.inj h
              exact ⟨[], t, by rw [eq_of_beq hcloser]; rfl, rfl⟩
            · exact hnext h
          · exact hnext h

theorem Bracket.closing?_eq_some {opener closer c : Char} {size : Nat} {t : Text}
    (h : closing? opener closer (c :: t) = some size) :
    ∃ inside rest, t = inside ++ closer :: rest ∧ size = inside.length + 1 := by
  obtain ⟨inside, rest, ht, hsize⟩ := closingFrom_eq_some h
  exact ⟨inside, rest, ht, by omega⟩

namespace Binding

/-- A name bound in a pattern is a whole name and no key. -/
theorem exists_of_mem_patternFrom {b : Binding} {covered : Nat} {depth : Int} {default? : Option Int}
    {offset : Nat} {t : Text} (h : b ∈ patternFrom covered depth default? offset t) :
    ∃ front behind, t = front ++ (b.name ++ behind) ∧ b.offset = offset + front.length ∧
      IsName b.name ∧ (∀ x, behind.head? = some x → isIdentChar x = false) ∧ isKey behind = false := by
  induction t generalizing covered depth default? offset with
  | nil => simp [patternFrom] at h
  | cons c t ih =>
    have hnext : ∀ {covered depth default?}, b ∈ patternFrom covered depth default? (offset + 1) t →
        ∃ front behind, c :: t = front ++ (b.name ++ behind) ∧ b.offset = offset + front.length ∧
          IsName b.name ∧ (∀ x, behind.head? = some x → isIdentChar x = false) ∧
          isKey behind = false := by
      intro covered depth default? hb
      obtain ⟨front, behind, ht, hoffset, hname⟩ := ih hb
      refine ⟨c :: front, behind, by rw [ht]; rfl, ?_, hname⟩
      rw [List.length_cons]
      omega
    cases covered with
    | succ covered => exact hnext h
    | zero =>
      rw [patternFrom] at h
      split at h
      · exact hnext h
      · split at h
        · rename_i hident
          rw [Bool.and_eq_true] at hident
          rcases List.mem_append.mp h with h | h
          · split at h
            · rename_i hfound
              rw [Bool.and_eq_true, Bool.not_eq_true'] at hfound
              obtain rfl := List.mem_singleton.mp h
              rw [Text.drop_length_takeWhile] at hfound
              refine ⟨[], t.dropWhile isIdentChar, ?_, rfl, isName_cons_takeWhile hident.1,
                fun x => head?_dropWhile_not, hfound.2⟩
              simp
            · cases h
          · exact hnext h
        · exact hnext h

theorem le_of_mem_ofPattern {b : Binding} {offset : Nat} {inside : Text}
    (h : b ∈ ofPattern offset inside) : offset ≤ b.offset := by
  obtain ⟨front, behind, -, hoffset, -⟩ := exists_of_mem_patternFrom h
  omega

/-- The bracket that closes a pattern is no part of a name, and no colon. -/
theorem boundAt_ofPattern {b : Binding} {script inside rest : Text} {closer : Char} {offset : Nat}
    (hscript : script.drop offset = inside ++ closer :: rest) (hcloser : closer = '}' ∨ closer = ']')
    (h : b ∈ ofPattern offset inside) : BoundAt script b.name b.offset := by
  obtain ⟨front, behind, rfl, hoffset, hname, hstop, hkey⟩ := exists_of_mem_patternFrom h
  have hmark : isSpace closer = false ∧ isIdentChar closer = false ∧ closer ≠ ':' := by
    rcases hcloser with rfl | rfl <;> decide +kernel
  have hafter : (Cursor.seek script b.offset).after = b.name ++ (behind ++ closer :: rest) := by
    change script.drop b.offset = _
    rw [hoffset, ← List.drop_drop, hscript]
    simp
  refine ⟨⟨b.name.reverse ++ (Cursor.seek script b.offset).before, behind ++ closer :: rest⟩,
    ⟨hname, ⟨hafter, rfl⟩, fun x hx => ?_⟩, fun hcolon => ?_⟩
  · rw [Cursor.peek?, List.head?_append, Option.or_eq_some_iff] at hx
    rcases hx with hx | ⟨-, hx⟩
    · exact hstop x hx
    · rw [← Option.some.inj hx]
      exact hmark.2.1
  · exfalso
    have hink : ((behind ++ closer :: rest).dropWhile isSpace).head? = some ':' := hcolon
    rw [List.dropWhile_append] at hink
    split at hink
    · rw [List.dropWhile_cons_of_neg (by simp [hmark.1])] at hink
      exact hmark.2.2 (Option.some.inj hink)
    · rename_i hbehind
      have hne : behind.dropWhile isSpace ≠ [] := by simpa using hbehind
      obtain ⟨x, more, hmore⟩ := List.exists_cons_of_ne_nil hne
      rw [hmore] at hink
      rw [isKey, Text.trimLeft, hmore] at hkey
      cases Option.some.inj hink
      cases hkey

/-- What a declarator binds stands behind its start and the reader goes on behind it. -/
theorem leads_declarator? {c stop : Cursor} {found : List Binding}
    (h : declarator? c = some (found, stop)) :
    c.Leads stop ∧ ∀ b ∈ found, c.offset ≤ b.offset := by
  have hskip := Cursor.leads_skipSpaces c
  have hle := hskip.le
  unfold declarator? at h
  simp only at h
  split at h
  · cases h
  · split at h
    · split at h
      · cases h
      · obtain ⟨rfl, rfl⟩ := Prod.mk.inj (Option.some.inj h)
        refine ⟨hskip.trans (Cursor.leads_advance _ _), fun b hb => ?_⟩
        have hb := le_of_mem_ofPattern hb
        omega
    · split at h
      · obtain ⟨rfl, rfl⟩ := Prod.mk.inj (Option.some.inj h)
        refine ⟨hskip.trans (Cursor.leads_skipWhile _ _), fun b hb => ?_⟩
        obtain rfl := List.mem_singleton.mp hb
        exact hle
      · cases h

/-- What a declarator binds. -/
theorem boundAt_declarator? {c stop : Cursor} {found : List Binding} {b : Binding} (hgap : c.FollowsGap)
    (h : declarator? c = some (found, stop)) (hb : b ∈ found) : BoundAt c.text b.name b.offset := by
  have htext := Cursor.text_skipSpaces c
  have hafter := Cursor.after_of_text htext
  unfold declarator? at h
  simp only at h
  split at h
  · cases h
  · rename_i first rest hc
    split at h
    · split at h
      · cases h
      · rename_i size hsize
        simp only [Option.some.injEq, Prod.mk.injEq] at h
        obtain ⟨rfl, -⟩ := h
        rw [hc] at hsize
        obtain ⟨inside, more, rfl, rfl⟩ := Bracket.closing?_eq_some hsize
        rw [Nat.add_sub_cancel, List.take_left] at hb
        have hdrop : c.text.drop (c.skipSpaces.offset + 1) =
            inside ++ (if first == '{' then '}' else ']') :: more := by
          rw [← List.drop_drop, ← hafter, hc]
          rfl
        refine boundAt_ofPattern hdrop ?_ hb
        split
        · exact .inl rfl
        · exact .inr rfl
    · split at h
      · rename_i hident
        rw [Bool.and_eq_true] at hident
        simp only [Option.some.injEq, Prod.mk.injEq] at h
        obtain ⟨rfl, -⟩ := h
        obtain rfl := List.mem_singleton.mp hb
        have hname : IsName (c.skipSpaces.after.takeWhile isIdentChar) := by
          rw [hc, List.takeWhile_cons_of_pos hident.1]
          exact isName_cons_takeWhile hident.1
        have hreads : c.skipSpaces.ReadsName _ c.skipSpaces.skipIdent :=
          ⟨hname, Cursor.reads_skipWhile isIdentChar _, fun x => Cursor.peek?_skipWhile⟩
        exact Cursor.Binds.boundAt ⟨hreads, fun _ => hgap.skipSpaces⟩ htext
      · cases h

theorem boundAt_ofDeclarators {c : Cursor} {b : Binding} (hgap : c.FollowsGap) (h : b ∈ ofDeclarators c) :
    BoundAt c.text b.name b.offset := by
  fun_induction ofDeclarators c with
  | case1 => cases h
  | case2 c found stop hd rest hstop ih =>
    rcases List.mem_append.mp h with h | h
    · exact boundAt_declarator? hgap hd h
    · have hcomma : ((Statement.stop stop).advance 1).FollowsGap := by
        intro x hx
        simp only [Cursor.prev?, Cursor.advance, hstop] at hx
        exact .inr (Option.some.inj hx).symm
      have hb := ih hcomma h
      rwa [Cursor.text_advance, Statement.text_stop, (leads_declarator? hd).1.text] at hb
  | case3 c found stop hd _ => exact boundAt_declarator? hgap hd h

end Binding

/-! ## Variables, functions and imports -/

theorem mem_of_mem_keepFirstFrom {α : Type} {name : α → Text} {seen : List Text} {items : List α}
    {a : α} (h : a ∈ keepFirstFrom name seen items) : a ∈ items := by
  induction items generalizing seen with
  | nil => exact h
  | cons b items ih =>
    rw [keepFirstFrom] at h
    split at h
    · exact List.mem_cons_of_mem b (ih h)
    · rcases List.mem_cons.mp h with rfl | h
      · exact List.mem_cons_self
      · exact List.mem_cons_of_mem b (ih h)

/-- Each name is kept, unless it was seen before. -/
theorem exists_mem_keepFirstFrom {α : Type} {name : α → Text} {seen : List Text} {items : List α} {a : α}
    (h : a ∈ items) (hseen : name a ∉ seen) : ∃ b ∈ keepFirstFrom name seen items, name b = name a := by
  induction items generalizing seen with
  | nil => cases h
  | cons first items ih =>
    rw [keepFirstFrom]
    split
    · rename_i hfirst
      rcases List.mem_cons.mp h with rfl | h
      · exact absurd (by simpa using hfirst) hseen
      · exact ih h hseen
    · by_cases hsame : name first = name a
      · exact ⟨first, List.mem_cons_self, hsame⟩
      · rcases List.mem_cons.mp h with rfl | h
        · exact absurd rfl hsame
        · have hnext : name a ∉ name first :: seen := by simpa [Ne.symm hsame] using hseen
          obtain ⟨b, hb, he⟩ := ih h hnext
          exact ⟨b, List.mem_cons_of_mem first hb, he⟩

/-- Every name is kept once, and none that was seen before. -/
theorem nodup_keepFirstFrom {α : Type} (name : α → Text) (seen : List Text) (items : List α) :
    (∀ a ∈ keepFirstFrom name seen items, name a ∉ seen) ∧
      ((keepFirstFrom name seen items).map name).Nodup := by
  induction items generalizing seen with
  | nil => exact ⟨nofun, .nil⟩
  | cons b items ih =>
    rw [keepFirstFrom]
    split
    · exact ih seen
    · rename_i hb
      obtain ⟨hseen, hnodup⟩ := ih (name b :: seen)
      refine ⟨List.forall_mem_cons.mpr ⟨by simpa using hb, fun a ha hmem => ?_⟩, ?_⟩
      · exact hseen a ha (List.mem_cons_of_mem _ hmem)
      · refine List.nodup_cons.mpr ⟨fun hmem => ?_, hnodup⟩
        obtain ⟨a, ha, heq⟩ := List.mem_map.mp hmem
        exact hseen a ha (heq ▸ List.mem_cons_self)

namespace Variable

/-- A prop exported under its own name is the identifier behind two keywords. -/
theorem exists_of_exportedProp? {c stop : Cursor} {found : FoundVariable}
    (h : exportedProp? c = some (found, stop)) :
    ∃ behind place : Cursor, c.wordAndSpaces? "export" = some behind ∧
      behind.oneOf? [("let", ()), ("var", ())] = some ((), place) ∧
      place.identifier? = some (found.name, stop) ∧ found = ⟨found.name, .prop, c.offset, place.offset⟩ := by
  unfold exportedProp? at h
  split at h
  · cases h
  · simp only [Option.bind_eq_bind, Option.bind_eq_some_iff, Prod.exists] at h
    obtain ⟨behind, hbehind, _, place, hplace, name, next, hname, he⟩ := h
    obtain ⟨rfl, rfl⟩ := Prod.mk.inj (Option.some.inj he)
    exact ⟨behind, place, hbehind, hplace, hname, rfl⟩

theorem boundAt_exportedProp? {c stop : Cursor} {found : FoundVariable}
    (h : exportedProp? c = some (found, stop)) : BoundAt c.text found.name found.nameOffset := by
  obtain ⟨behind, place, hbehind, hplace, hname, hfound⟩ := exists_of_exportedProp? h
  have hreads := (Cursor.identifier?_eq_some.mp hname).2
  rw [hfound]
  refine Cursor.Binds.boundAt ⟨hreads, fun _ => Cursor.followsGap_oneOf? hplace⟩ ?_
  rw [Cursor.text_oneOf? hplace, Cursor.text_wordAndSpaces? hbehind]

/-- A reactive variable is the identifier between the label and an `=`. -/
theorem exists_of_reactive? {c stop : Cursor} {found : FoundVariable}
    (h : reactive? c = some (found, stop)) :
    ∃ label behind : Cursor, (c.skipWhile fun ch => ch == ' ' || ch == '\t').expect? "$:" = some label ∧
      label.skipSpaces.identifier? = some (found.name, behind) ∧
      behind.skipSpaces.expect? "=" = some stop ∧
      found = ⟨found.name, .reactive, c.offset, label.skipSpaces.offset⟩ := by
  unfold reactive? at h
  split at h
  · cases h
  · simp only [Option.bind_eq_bind, Option.bind_eq_some_iff, Prod.exists] at h
    obtain ⟨label, hlabel, name, behind, hname, next, hequals, he⟩ := h
    split at he
    · cases he
    · obtain ⟨rfl, rfl⟩ := Prod.mk.inj (Option.some.inj he)
      exact ⟨label, behind, hlabel, hname, hequals, rfl⟩

theorem boundAt_reactive? {c stop : Cursor} {found : FoundVariable}
    (h : reactive? c = some (found, stop)) : BoundAt c.text found.name found.nameOffset := by
  obtain ⟨label, behind, hlabel, hname, hequals, hfound⟩ := exists_of_reactive? h
  have hreads := (Cursor.identifier?_eq_some.mp hname).2
  rw [hfound]
  refine Cursor.Binds.boundAt ⟨hreads, fun hcolon => ?_⟩ ?_
  · -- an `=` stands behind the name
    cases (Cursor.expect?_eq_some.mp hequals).peek?.symm.trans hcolon
  · rw [Cursor.text_skipSpaces, Cursor.text_expect? hlabel, Cursor.text_skipWhile]

/-- A prop of a pattern is bound between the braces of one. -/
theorem exists_of_mem_patternProps {script : Text} {found : FoundVariable}
    (h : found ∈ patternProps script) :
    ∃ c stop statement brace size b, c.text = script ∧
      patternStart? c = some ((statement, brace), stop) ∧
      Bracket.closing? '{' '}' brace.after = some size ∧
      b ∈ Binding.ofPattern (brace.offset + 1) ((brace.after.drop 1).take (size - 1)) ∧
      found = ⟨b.name, .prop, statement, b.offset⟩ := by
  obtain ⟨⟨statement, brace⟩, hstart, h⟩ := List.mem_flatMap.mp h
  obtain ⟨c, stop, hc, hr⟩ := Cursor.mem_collect hstart
  simp only at h
  split at h
  · cases h
  · rename_i size hsize
    split at h
    · cases h
    · split at h
      · obtain ⟨b, hb, rfl⟩ := List.mem_map.mp h
        exact ⟨c, stop, statement, brace, size, b, hc, hr, hsize, hb, rfl⟩
      · cases h

theorem exists_of_patternStart? {c brace stop : Cursor} {statement : Nat}
    (h : patternStart? c = some ((statement, brace), stop)) :
    statement = c.offset ∧ brace.expect? "\x7b" = some stop ∧
      ∃ keyword, (c.expect? "let" = some keyword ∨ c.expect? "const" = some keyword) ∧
        brace = keyword.skipSpaces := by
  unfold patternStart? at h
  split at h
  · cases h
  · simp only [Option.bind_eq_bind, Option.bind_eq_some_iff] at h
    obtain ⟨keyword, hkeyword, next, hbrace, he⟩ := h
    simp only [Option.some.injEq, Prod.mk.injEq] at he
    obtain ⟨⟨rfl, rfl⟩, rfl⟩ := he
    exact ⟨rfl, hbrace, keyword, (Option.or_eq_some_iff.mp hkeyword).imp_right And.right, rfl⟩

theorem text_patternStart? {c brace stop : Cursor} {statement : Nat}
    (h : patternStart? c = some ((statement, brace), stop)) : brace.text = c.text := by
  obtain ⟨-, -, keyword, hword, rfl⟩ := exists_of_patternStart? h
  rw [Cursor.text_skipSpaces]
  exact hword.elim Cursor.text_expect? Cursor.text_expect?

theorem boundAt_patternProps {script : Text} {found : FoundVariable} (h : found ∈ patternProps script) :
    BoundAt script found.name found.nameOffset := by
  obtain ⟨c, stop, statement, brace, size, b, hc, hr, hsize, hb, rfl⟩ := exists_of_mem_patternProps h
  have hafter := (Cursor.expect?_eq_some.mp (exists_of_patternStart? hr).2.1).after
  rw [show brace.after = '{' :: stop.after from hafter] at hsize hb
  obtain ⟨inside, rest, hinside, rfl⟩ := Bracket.closing?_eq_some hsize
  have hdrop : script.drop (brace.offset + 1) = inside ++ '}' :: rest := by
    rw [← List.drop_drop, ← Cursor.after_of_text ((text_patternStart? hr).trans hc), hafter, ← hinside]
    rfl
  rw [hinside, List.drop_one, List.tail_cons, Nat.add_sub_cancel, List.take_left] at hb
  exact Binding.boundAt_ofPattern hdrop (.inl rfl) hb

/-- A plain declaration binds the names that are read behind its keyword. -/
theorem exists_of_mem_declared {script : Text} {found : FoundVariable} (h : found ∈ declared script) :
    ∃ c stop place kind rest b, c.text = script ∧ declaration? c = some ((place, kind, rest), stop) ∧
      b ∈ Binding.ofDeclarators rest ∧ found = ⟨b.name, kind, place.offset, b.offset⟩ := by
  obtain ⟨⟨place, kind, rest⟩, hplace, h⟩ := List.mem_flatMap.mp h
  obtain ⟨c, stop, hc, hr⟩ := Cursor.mem_collect hplace
  simp only at h
  split at h
  · cases h
  · obtain ⟨b, hb, rfl⟩ := List.mem_map.mp h
    exact ⟨c, stop, place, kind, rest, b, hc, hr, hb, rfl⟩

theorem oneOf?_of_declaration? {c place rest stop : Cursor} {kind : VariableKind}
    (h : declaration? c = some ((place, kind, rest), stop)) :
    place = c ∧ c.oneOf? declarationKeywords = some (kind, rest) ∧
      rest.peek?.any (fun ch => isIdentHead ch || ch == '{' || ch == '[') = true := by
  unfold declaration? at h
  split at h
  · cases h
  · simp only [Option.bind_eq_bind, Option.bind_eq_some_iff, Prod.exists] at h
    obtain ⟨kind', next, hkeyword, he⟩ := h
    split at he
    · rename_i hhead
      simp only [Option.some.injEq, Prod.mk.injEq] at he
      obtain ⟨⟨rfl, rfl, rfl⟩, -⟩ := he
      exact ⟨rfl, hkeyword, hhead⟩
    · cases he

theorem boundAt_declared {script : Text} {found : FoundVariable} (h : found ∈ declared script) :
    BoundAt script found.name found.nameOffset := by
  obtain ⟨c, stop, place, kind, rest, b, rfl, hr, hb, rfl⟩ := exists_of_mem_declared h
  have hkeyword := (oneOf?_of_declaration? hr).2.1
  rw [← Cursor.text_oneOf? hkeyword]
  exact Binding.boundAt_ofDeclarators (Cursor.followsGap_oneOf? hkeyword) hb

/-- Every variable found is bound where it stands. -/
theorem boundAt_findAll {script : Text} {offsets : List Nat} {found : FoundVariable}
    (h : found ∈ findAll script offsets) : BoundAt script found.name found.nameOffset := by
  have hmem := (List.mem_filter.mp (mem_of_mem_keepFirstFrom h)).1
  simp only [List.mem_append] at hmem
  rcases hmem with ((hprop | hpattern) | hplain) | hreactive
  · obtain ⟨c, stop, rfl, hr⟩ := Cursor.mem_collect hprop
    exact boundAt_exportedProp? hr
  · exact boundAt_patternProps hpattern
  · exact boundAt_declared hplain
  · obtain ⟨c, stop, rfl, hr⟩ := Cursor.mem_collect hreactive
    exact boundAt_reactive? hr

/-- Every variable found stands in the script under its name. -/
theorem namedAt_findAll {script : Text} {offsets : List Nat} {found : FoundVariable}
    (h : found ∈ findAll script offsets) : NamedAt script found.name found.nameOffset :=
  (boundAt_findAll h).namedAt

end Variable

namespace Function

/-- A declaration gives a function the identifier in front of its parameters. -/
theorem exists_of_declaration? {c stop : Cursor} {found : FoundFunction}
    (h : declaration? c = some (found, stop)) :
    ∃ place behind : Cursor, place.text = c.text ∧ found.offset = place.offset ∧
      place.identifier? = some (found.name, behind) ∧ behind.skipSpaces.expect? "(" = some stop := by
  unfold declaration? at h
  split at h
  · cases h
  · simp only [Option.bind_eq_bind, Option.bind_eq_some_iff] at h
    obtain ⟨next, hnext, h⟩ := h
    split at h
    · cases h
    · simp only [Option.bind_eq_some_iff, Prod.exists] at h
      obtain ⟨name, behind, hname, paren, hparen, he⟩ := h
      obtain ⟨rfl, rfl⟩ := Prod.mk.inj (Option.some.inj he)
      refine ⟨_, behind, ?_, rfl, hname, hparen⟩
      have hword : next.text = c.text := by
        rw [Cursor.text_expect? hnext, Cursor.text_optionalWord, Cursor.text_optionalWord]
      rw [Cursor.text_skipSpaces]
      cases hstar : next.skipSpaces.expect? "*" with
      | none => rw [Option.getD_none, Cursor.text_skipSpaces, hword]
      | some star => rw [Option.getD_some, Cursor.text_expect? hstar, Cursor.text_skipSpaces, hword]

theorem namedAt_declaration? {c stop : Cursor} {found : FoundFunction}
    (h : declaration? c = some (found, stop)) : NamedAt c.text found.name found.offset := by
  obtain ⟨place, behind, htext, hoffset, hname, -⟩ := exists_of_declaration? h
  exact hoffset ▸ Cursor.namedAt_identifier? htext hname

theorem namedAt_boundFunctions {script : Text} {found : FoundFunction}
    (h : found ∈ boundFunctions script) : NamedAt script found.name found.offset := by
  obtain ⟨⟨isExported, name, offset, rest⟩, hbinding, h⟩ := List.mem_filterMap.mp h
  simp only [Option.bind_eq_bind, Option.bind_eq_some_iff, Prod.exists] at h
  obtain ⟨_, _, _, _, _, he⟩ := h
  obtain rfl := Option.some.inj he
  obtain ⟨c, stop, hc, hr⟩ := Cursor.mem_collect hbinding
  unfold binding? at hr
  split at hr
  · cases hr
  · simp only [Option.bind_eq_bind, Option.bind_eq_some_iff, Prod.exists] at hr
    obtain ⟨_, place, hplace, _, _, hname, he⟩ := hr
    simp only [Option.some.injEq, Prod.mk.injEq] at he
    rw [← he.1.2.1, ← he.1.2.2.1]
    refine Cursor.namedAt_identifier? ?_ hname
    rw [Cursor.text_oneOf? hplace, Cursor.text_optionalWord, hc]

/-- A member is an identifier with a single colon behind it. -/
theorem member?_eq_some {c place rest stop : Cursor} {name : Text} :
    member? c = some ((name, place, rest), stop) ↔
      place = c ∧ rest = stop ∧ (!c.startsFresh || c.prev? == some '?') = false ∧
        stop.peek? ≠ some ':' ∧
        ∃ behind, c.identifier? = some (name, behind) ∧ behind.skipSpaces.expect? ":" = some stop := by
  unfold member?
  constructor
  · intro h
    split at h
    · cases h
    · rename_i hfresh
      simp only [Option.bind_eq_bind, Option.bind_eq_some_iff, Prod.exists] at h
      obtain ⟨name', behind, hname, next, hcolon, he⟩ := h
      split at he
      · cases he
      · rename_i hmark
        simp only [Option.some.injEq, Prod.mk.injEq] at he
        obtain ⟨⟨rfl, rfl, rfl⟩, rfl⟩ := he
        exact ⟨rfl, rfl, by simpa using hfresh, by simpa using hmark, behind, hname, hcolon⟩
  · rintro ⟨rfl, rfl, hfresh, hmark, behind, hname, hcolon⟩
    simp only [hfresh, hname, hcolon, Option.bind_eq_bind, Option.bind_some, Bool.false_eq_true, if_false,
      beq_iff_eq, hmark]

/-- A member counts if its value is an arrow function and nothing speaks for a type. -/
theorem mem_memberFunctions {script : Text} {found : FoundFunction} :
    found ∈ memberFunctions script ↔
      ∃ name place rest body isAsync, (name, place, rest) ∈ Cursor.collect member? script ∧
        (Vocabulary.isControlKeyword name || name == "case" || name == "default") = false ∧
        Statement.arrow? rest.skipSpaces = some (body, isAsync) ∧
        TypeContext.startsWithTypeKeyword (body.after.take 16) = false ∧
        TypeContext.insideTypeLiteral place = false ∧
        found = { name, kind := .method, offset := place.offset, isAsync } := by
  unfold memberFunctions
  rw [List.mem_filterMap]
  constructor
  · rintro ⟨⟨name, place, rest⟩, hmember, h⟩
    simp only at h
    split at h
    · cases h
    · rename_i hname
      simp only [Option.bind_eq_bind, Option.bind_eq_some_iff, Prod.exists] at h
      obtain ⟨body, isAsync, harrow, h⟩ := h
      split at h
      · cases h
      · rename_i htype
        split at h
        · cases h
        · rename_i hliteral
          exact ⟨name, place, rest, body, isAsync, hmember, by simpa using hname, harrow,
            by simpa using htype, by simpa using hliteral, (Option.some.inj h).symm⟩
  · rintro ⟨name, place, rest, body, isAsync, hmember, hname, harrow, htype, hliteral, rfl⟩
    refine ⟨(name, place, rest), hmember, ?_⟩
    simp only [hname, harrow, htype, hliteral, Option.bind_eq_bind, Option.bind_some, Bool.false_eq_true,
      if_false]

theorem namedAt_memberFunctions {script : Text} {found : FoundFunction}
    (h : found ∈ memberFunctions script) : NamedAt script found.name found.offset := by
  obtain ⟨name, place, rest, body, isAsync, hmember, -, -, -, -, rfl⟩ := mem_memberFunctions.mp h
  obtain ⟨c, stop, hc, hr⟩ := Cursor.mem_collect hmember
  obtain ⟨rfl, -, -, -, behind, hname, -⟩ := member?_eq_some.mp hr
  exact Cursor.namedAt_identifier? hc hname

/-- A method is an identifier with a parenthesis behind it. -/
theorem exists_of_mem_methods {script : Text} {found : FoundFunction} (h : found ∈ methods script) :
    ∃ c behind stop : Cursor, c.text = script ∧ found.offset = c.offset ∧
      c.identifier? = some (found.name, behind) ∧ behind.skipSpaces.expect? "(" = some stop := by
  obtain ⟨⟨name, place, paren⟩, hcall, h⟩ := List.mem_filterMap.mp h
  obtain ⟨c, stop, hc, hr⟩ := Cursor.mem_collect hcall
  unfold call? at hr
  split at hr
  · cases hr
  · simp only [Option.bind_eq_bind, Option.bind_eq_some_iff, Prod.exists] at hr
    obtain ⟨name', behind, hname, next, hparen, he⟩ := hr
    simp only [Option.some.injEq, Prod.mk.injEq] at he
    obtain ⟨⟨rfl, rfl, rfl⟩, rfl⟩ := he
    simp only at h
    split at h
    · cases h
    · simp only [Option.bind_eq_bind, Option.bind_eq_some_iff] at h
      obtain ⟨_, _, h⟩ := h
      split at h
      · cases h
      · split at h
        · cases h
        · obtain rfl := Option.some.inj h
          exact ⟨c, behind, next, hc, rfl, hname, hparen⟩

theorem namedAt_methods {script : Text} {found : FoundFunction} (h : found ∈ methods script) :
    NamedAt script found.name found.offset := by
  obtain ⟨c, behind, stop, hc, hoffset, hname, -⟩ := exists_of_mem_methods h
  exact hoffset ▸ Cursor.namedAt_identifier? hc hname

/-- Every function found stands in the script under its name. -/
theorem namedAt_findAll {script : Text} {found : FoundFunction} (h : found ∈ findAll script) :
    NamedAt script found.name found.offset := by
  have hmem := mem_of_mem_keepFirstFrom h
  simp only [List.mem_append] at hmem
  rcases hmem with ((hdeclared | hbound) | hmember) | hmethod
  · obtain ⟨c, stop, rfl, hr⟩ := Cursor.mem_collect hdeclared
    exact namedAt_declaration? hr
  · exact namedAt_boundFunctions hbound
  · exact namedAt_memberFunctions hmember
  · exact namedAt_methods hmethod

end Function

namespace Import

/-- Every name that an import binds is an identifier. -/
theorem isName_findAll {script symbol : Text} {found : FoundImport} (h : found ∈ findAll script)
    (hs : symbol ∈ found.symbols) : IsName symbol := by
  have hmem := List.mem_mergeSort.mp h
  simp only [List.mem_append] at hmem
  rcases hmem with (hclause | hbare) | hdynamic
  · obtain ⟨c, stop, _, hr⟩ := Cursor.mem_collect hclause
    unfold clauseImport? at hr
    split at hr
    · cases hr
    · simp only [Option.bind_eq_bind, Option.bind_eq_some_iff, Prod.exists] at hr
      obtain ⟨_, _, clause, _, _, _, he⟩ := hr
      obtain ⟨rfl, rfl⟩ := Prod.mk.inj (Option.some.inj he)
      exact isName_of_isIdentifier (List.mem_filter.mp hs).2
  · obtain ⟨c, stop, _, hr⟩ := Cursor.mem_collect hbare
    unfold bareImport? at hr
    split at hr
    · cases hr
    · simp only [Option.bind_eq_bind, Option.bind_eq_some_iff, Prod.exists] at hr
      obtain ⟨_, _, _, _, _, he⟩ := hr
      obtain ⟨rfl, rfl⟩ := Prod.mk.inj (Option.some.inj he)
      cases hs
  · obtain ⟨c, stop, _, hr⟩ := Cursor.mem_collect hdynamic
    unfold dynamicImport? at hr
    split at hr
    · cases hr
    · simp only [Option.bind_eq_bind, Option.bind_eq_some_iff, Prod.exists] at hr
      obtain ⟨_, _, _, _, _, _, _, _, _, he⟩ := hr
      obtain ⟨rfl, rfl⟩ := Prod.mk.inj (Option.some.inj he)
      cases hs

end Import

end ComponentAudit
