import ComponentAudit.Proofs.Style.Block
import ComponentAudit.Proofs.Text.Cut
import ComponentAudit.Proofs.Text.Squeeze
import ComponentAudit.Style.Scan

/-! # Reading back a written tree of style blocks

The pairs of braces, the segments and the stack of frames each see a written tree in their own way.
Plain texts are passed over by all three, so the pairs of a written tree are those of its blocks
(`bracePairsFrom_render`), and a frame whose body is a written tree is worked off without touching the
frames below it (`walk_render`). -/

namespace ComponentAudit.Style
open Sheet

/-! ## Plain texts -/

theorem unmarked_ne {c : Char} (h : isMark c = false) :
    c ≠ '{' ∧ c ≠ '}' ∧ c ≠ ';' ∧ c ≠ '\'' ∧ c ≠ '"' ∧ c ≠ '/' ∧ c ≠ '\\' := by
  refine ⟨?_, ?_, ?_, ?_, ?_, ?_, ?_⟩ <;> (rintro rfl; revert h; decide)

theorem Plain.skipSpaces {t : Text} (h : Plain t) (more : Text) :
    (t ++ more).dropWhile isSpace = t ++ more ∧ (t ++ more).takeWhile isSpace = [] := by
  obtain ⟨c, rest, rfl⟩ := List.exists_cons_of_ne_nil h.nonempty
  have hc := Text.head_squeeze h.squeezed
  simp [hc]

/-- A segment that is balanced and unmarked ends at the next delimiter. -/
theorem segmentFrom_append {t : Text} {d : Char} {depth : Nat}
    (hm : ∀ c ∈ t, isMark c = false) (hb : balanced depth t = true)
    (hd : d = '{' ∨ d = ';' ∨ d = '}') (more : Text) :
    segmentFrom none depth (t ++ d :: more) = (t, some (d, more)) := by
  induction t generalizing depth with
  | nil =>
    have h0 : depth = 0 := by simpa [balanced] using hb
    rcases hd with rfl | rfl | rfl <;> simp [segmentFrom, h0]
  | cons c t ih =>
    obtain ⟨h1, h2, h3, h4, h5, _, _⟩ := unmarked_ne (hm c (by simp))
    have ht : ∀ c ∈ t, isMark c = false := fun x hx => hm x (by simp [hx])
    rw [balanced] at hb
    split at hb
    · rename_i hc
      simp [segmentFrom, isStyleQuote, h1, h2, h3, h4, h5, hc, ih ht hb]
    · rename_i hc
      split at hb
      · rename_i hc'
        simp only [Bool.and_eq_true] at hb
        simp [segmentFrom, isStyleQuote, h1, h2, h3, h4, h5, hc, hc', ih ht hb.2]
      · rename_i hc'
        simp [segmentFrom, isStyleQuote, h1, h2, h3, h4, h5, hc, hc', ih ht hb]

theorem bracePairsFrom_unmarked {t : Text} (h : ∀ c ∈ t, isMark c = false) (more : Text)
    (openers : List Nat) (offset : Nat) :
    bracePairsFrom none openers offset (t ++ more) =
      bracePairsFrom none openers (offset + t.length) more := by
  induction t generalizing offset with
  | nil => simp
  | cons c t ih =>
    obtain ⟨h1, h2, _, h4, h5, _, _⟩ := unmarked_ne (h c (by simp))
    have hstep : bracePairsFrom none openers offset (c :: (t ++ more)) =
        bracePairsFrom none openers (offset + 1) (t ++ more) := by
      simp [bracePairsFrom, isStyleQuote, h1, h2, h4, h5]
    rw [List.cons_append, hstep, ih (fun x hx => h x (by simp [hx])), List.length_cons]
    congr 1
    omega

theorem maskStyleFrom_code {t : Text} (h : '/' ∉ t) (fresh : Bool) :
    Comment.maskStyleFrom .code fresh t = t := by
  induction t generalizing fresh with
  | nil => simp [Comment.maskStyleFrom]
  | cons c t ih =>
    have hc : c ≠ '/' := fun he => h (by simp [he])
    have ht : '/' ∉ t := fun he => h (by simp [he])
    rw [Comment.maskStyleFrom.eq_4]
    · rw [ih ht]
    · intro _ he; exact absurd he hc
    · intro _ _ he; exact absurd he hc

/-! ## The texts of a writable tree -/

theorem propertyChar_spec {p : Text} (h : isPropertyName p = true) :
    ∀ c ∈ p, (isWordChar c || c == '-') = true := by
  have hhead : ∀ c, (isAsciiLetter c || c == '_') = true → (isWordChar c || c == '-') = true := by
    intro c hc
    rcases Bool.or_eq_true_iff.mp hc with hl | hu
    · have hlt : c.toNat < 128 := by
        simp only [isAsciiLetter, Bool.or_eq_true, Bool.and_eq_true, decide_eq_true_eq] at hl
        omega
      simp [isWordChar, isAlphanumeric, hlt, hl]
    · simp [isWordChar, hu]
  unfold isPropertyName at h
  simp only at h
  intro c hc
  split at h
  · rcases List.mem_cons.mp hc with rfl | hc
    · simp
    · rcases List.mem_cons.mp hc with rfl | hc
      · simp
      · exact List.all_eq_true.mp h c hc
  · obtain ⟨h1, h2⟩ := Bool.and_eq_true_iff.mp h
    rcases List.mem_cons.mp hc with rfl | hc
    · simp
    · rcases List.mem_cons.mp hc with rfl | hc
      · exact hhead _ h1
      · exact List.all_eq_true.mp h2 c hc
  · obtain ⟨h1, h2⟩ := Bool.and_eq_true_iff.mp h
    rcases List.mem_cons.mp hc with rfl | hc
    · exact hhead _ h1
    · exact List.all_eq_true.mp h2 c hc
  · exact absurd hc (by simp)

/-- A property name holds no delimiter, no bracket and no colon. -/
theorem propertyChar_quiet {p : Text} (h : isPropertyName p = true) :
    ∀ c ∈ p, isMark c = false ∧ c ≠ '(' ∧ c ≠ '[' ∧ c ≠ ')' ∧ c ≠ ']' ∧ c ≠ ':' ∧ c ≠ '@' := by
  intro c hc
  have hw := propertyChar_spec h c hc
  have hloud : (("\x7b\x7d;'\"/\\" : Text).all fun d => !(isWordChar d || d == '-')) = true := by decide
  refine ⟨Bool.eq_false_iff.mpr fun hm => ?_, ?_, ?_, ?_, ?_, ?_, ?_⟩
  · have hquiet := List.all_eq_true.mp hloud c (List.contains_iff_mem.mp hm)
    rw [hw] at hquiet
    cases hquiet
  all_goals (rintro rfl; revert hw; decide)

theorem balanced_append {p : Text} (h : ∀ c ∈ p, c ≠ '(' ∧ c ≠ '[' ∧ c ≠ ')' ∧ c ≠ ']') (depth : Nat)
    (more : Text) : balanced depth (p ++ more) = balanced depth more := by
  induction p with
  | nil => rfl
  | cons c p ih =>
    obtain ⟨h1, h2, h3, h4⟩ := h c (by simp)
    rw [List.cons_append, balanced]
    simp only [beq_eq_false_iff_ne.mpr, h1, h2, h3, h4, ne_eq, not_false_eq_true, Bool.or_self,
      Bool.false_eq_true, if_false]
    exact ih (fun x hx => h x (by simp [hx]))

theorem propertyName_ne_nil {p : Text} (h : isPropertyName p = true) : p ≠ [] := by
  rintro rfl
  cases h

/-- A declaration as it stands in front of its semicolon. -/
theorem declaration_segment {p v : Text} (hp : isPropertyName p = true) (hv : Plain v) :
    (∀ c ∈ p ++ ':' :: v, isMark c = false) ∧ balanced 0 (p ++ ':' :: v) = true := by
  have hq := propertyChar_quiet hp
  constructor
  · intro c hc
    rcases List.mem_append.mp hc with hc | hc
    · exact (hq c hc).1
    · rcases List.mem_cons.mp hc with rfl | hc
      · decide
      · exact hv.unmarked c hc
  · have hb : ∀ c ∈ p ++ [':'], c ≠ '(' ∧ c ≠ '[' ∧ c ≠ ')' ∧ c ≠ ']' := by
      intro c hc
      rcases List.mem_append.mp hc with hc | hc
      · obtain ⟨_, h1, h2, h3, h4, _⟩ := hq c hc
        exact ⟨h1, h2, h3, h4⟩
      · rw [List.mem_singleton.mp hc]
        decide
    rw [show p ++ ':' :: v = (p ++ [':']) ++ v by simp, balanced_append hb]
    exact hv.balanced

/-! ## Pairs of braces -/

/-- The pairs of braces in the order in which they close, for contents that start at `offset`. -/
def Body.pairs (offset : Nat) : Body → List (Nat × Nat)
  | empty => []
  | block _ header inside rest =>
    inside.pairs (offset + header.length + 1) ++
      (offset + header.length, offset + header.length + 1 + inside.render.length) ::
        rest.pairs (offset + header.length + inside.render.length + 2)
  | declaration property value rest => rest.pairs (offset + property.length + value.length + 2)
  | statement prelude rest => rest.pairs (offset + prelude.length + 1)

theorem bracePairsFrom_render {body : Body} (h : body.Writable) (more : Text) (openers : List Nat)
    (offset : Nat) :
    bracePairsFrom none openers offset (body.render ++ more) =
      body.pairs offset ++ bracePairsFrom none openers (offset + body.render.length) more := by
  induction body generalizing more openers offset with
  | empty => simp [Body.render, Body.pairs]
  | block kind header inside rest ihInside ihRest =>
    obtain ⟨hheader, _, hinside, hrest⟩ := h
    have hopen : ∀ t, bracePairsFrom none openers (offset + header.length) ('{' :: t) =
        bracePairsFrom none ((offset + header.length) :: openers) (offset + header.length + 1) t := by
      intro t; simp [bracePairsFrom, isStyleQuote]
    have hclose : ∀ o n t, bracePairsFrom none (o :: openers) n ('}' :: t) =
        (o, n) :: bracePairsFrom none openers (n + 1) t := by
      intro o n t; simp [bracePairsFrom, isStyleQuote]
    simp only [Body.render, Body.pairs, List.append_assoc, List.cons_append]
    rw [bracePairsFrom_unmarked hheader.unmarked, hopen, ihInside hinside, hclose, ihRest hrest]
    simp only [List.length_append, List.length_cons]
    congr 3 <;> (congr 1; omega)
  | declaration property value rest ih =>
    obtain ⟨⟨hp, _⟩, hv, hrest⟩ := h
    have hsemi : ∀ n t, bracePairsFrom none openers n (';' :: t) =
        bracePairsFrom none openers (n + 1) t := by
      intro n t; simp [bracePairsFrom, isStyleQuote]
    rw [Body.render, show property ++ ':' :: (value ++ ';' :: rest.render) ++ more =
      (property ++ ':' :: value) ++ ';' :: (rest.render ++ more) by simp,
      bracePairsFrom_unmarked (declaration_segment hp hv).1, hsemi, ih hrest, Body.pairs]
    simp only [List.length_append, List.length_cons]
    congr 2 <;> omega
  | statement prelude rest ih =>
    obtain ⟨hp, _, hrest⟩ := h
    have hsemi : ∀ n t, bracePairsFrom none openers n (';' :: t) =
        bracePairsFrom none openers (n + 1) t := by
      intro n t; simp [bracePairsFrom, isStyleQuote]
    rw [Body.render, show prelude ++ ';' :: rest.render ++ more =
      prelude ++ ';' :: (rest.render ++ more) by simp,
      bracePairsFrom_unmarked hp.unmarked, hsemi, ih hrest, Body.pairs]
    simp only [List.length_append, List.length_cons]
    congr 2
    omega

theorem pairs_range (body : Body) (offset : Nat) :
    ∀ pair ∈ body.pairs offset, offset ≤ pair.1 ∧ pair.1 < offset + body.render.length := by
  induction body generalizing offset with
  | empty => simp [Body.pairs]
  | block kind header inside rest ihInside ihRest =>
    intro pair hpair
    simp only [Body.render, List.length_append, List.length_cons]
    rcases List.mem_append.mp hpair with h | h
    · have := ihInside _ pair h
      omega
    · rcases List.mem_cons.mp h with rfl | h
      · dsimp only; omega
      · have := ihRest _ pair h
        omega
  | declaration property value rest ih =>
    intro pair hpair
    have := ih _ pair hpair
    simp only [Body.render, List.length_append, List.length_cons]
    omega
  | statement prelude rest ih =>
    intro pair hpair
    have := ih _ pair hpair
    simp only [Body.render, List.length_append, List.length_cons]
    omega

/-- Every block of contents that start at `offset` is closed where its contents end. -/
def Body.Paired (pairs : List (Nat × Nat)) (offset : Nat) : Body → Prop
  | empty => True
  | block _ header inside rest =>
    pairs.lookup (offset + header.length) = some (offset + header.length + 1 + inside.render.length) ∧
      inside.Paired pairs (offset + header.length + 1) ∧
      rest.Paired pairs (offset + header.length + inside.render.length + 2)
  | declaration property value rest =>
    rest.Paired pairs (offset + property.length + value.length + 2)
  | statement prelude rest => rest.Paired pairs (offset + prelude.length + 1)

theorem lookup_of_forall_ne {pairs : List (Nat × Nat)} {key : Nat} (h : ∀ pair ∈ pairs, pair.1 ≠ key) :
    pairs.lookup key = none := by
  rw [List.lookup_eq_none_iff]
  intro pair hpair
  exact bne_iff_ne.mpr fun he => h pair hpair he.symm

/-- A look-up finds the pairs of contents, whatever stands in front of them that opens elsewhere. -/
theorem paired_append (body : Body) (offset : Nat) (front back : List (Nat × Nat))
    (h : ∀ pair ∈ front, pair.1 < offset ∨ offset + body.render.length ≤ pair.1) :
    body.Paired (front ++ (body.pairs offset ++ back)) offset := by
  induction body generalizing offset front back with
  | empty => trivial
  | block kind header inside rest ihInside ihRest =>
    simp only [Body.render, List.length_append, List.length_cons] at h
    have hinside := pairs_range inside (offset + header.length + 1)
    refine ⟨?_, ?_, ?_⟩
    · have hfront : front.lookup (offset + header.length) = none :=
        lookup_of_forall_ne fun pair hpair => by have := h pair hpair; omega
      have hnested : (inside.pairs (offset + header.length + 1)).lookup (offset + header.length) =
          none :=
        lookup_of_forall_ne fun pair hpair => by have := hinside pair hpair; omega
      simp [Body.pairs, List.lookup_append, hfront, hnested]
    · rw [Body.pairs, List.append_assoc, List.cons_append]
      exact ihInside _ _ _ fun pair hpair => by have := h pair hpair; omega
    · have hsplit : front ++ (Body.pairs offset (.block kind header inside rest) ++ back) =
          (front ++ (inside.pairs (offset + header.length + 1) ++
            [(offset + header.length, offset + header.length + 1 + inside.render.length)])) ++
          (rest.pairs (offset + header.length + inside.render.length + 2) ++ back) := by
        simp [Body.pairs]
      rw [hsplit]
      refine ihRest _ _ _ fun pair hpair => ?_
      rcases List.mem_append.mp hpair with hpair | hpair
      · have := h pair hpair
        omega
      · rcases List.mem_append.mp hpair with hpair | hpair
        · have := hinside pair hpair
          omega
        · rw [List.mem_singleton.mp hpair]
          dsimp only
          omega
  | declaration property value rest ih =>
    simp only [Body.render, List.length_append, List.length_cons] at h
    exact ih _ _ _ fun pair hpair => by have := h pair hpair; omega
  | statement prelude rest ih =>
    simp only [Body.render, List.length_append, List.length_cons] at h
    exact ih _ _ _ fun pair hpair => by have := h pair hpair; omega

theorem paired_bracePairs {body : Body} (h : body.Writable) :
    body.Paired (bracePairs body.render) 0 := by
  have hpairs := bracePairsFrom_render h [] [] 0
  rw [List.append_nil] at hpairs
  rw [bracePairs, hpairs]
  exact paired_append body 0 [] _ (by simp)

/-! ## One step -/

/-- Enough about a segment to take it off a frame. -/
theorem step_segment {pairs : List (Nat × Nat)} {t more context : Text} {offset : Nat}
    {enclosing : List Nat} (sheet : Sheet) (hne : t ≠ [])
    (hhead : ∀ c rest, t = c :: rest → isSpace c = false) (hm : ∀ c ∈ t, isMark c = false)
    (hb : balanced 0 t = true) :
    step pairs ⟨offset, t ++ ';' :: more, context, enclosing⟩ sheet =
      ([⟨offset + t.length + 1, more, context, enclosing⟩],
        sheet.addSegment ⟨offset, t ++ ';' :: more, context, enclosing⟩ t) := by
  obtain ⟨c, rest, rfl⟩ := List.exists_cons_of_ne_nil hne
  have hc := hhead c rest rfl
  have hseg := segmentFrom_append hm hb (.inr (.inl rfl)) more
  simp only [List.cons_append] at hseg
  simp [step, Sheet.segment, hc, hseg]

theorem step_block {pairs : List (Nat × Nat)} {header inside more context : Text} {offset : Nat}
    {enclosing : List Nat} (sheet : Sheet) (hp : Plain header)
    (hpair : pairs.lookup (offset + header.length) =
      some (offset + header.length + 1 + inside.length)) :
    step pairs ⟨offset, header ++ '{' :: (inside ++ '}' :: more), context, enclosing⟩ sheet =
      match enter sheet ⟨offset, header ++ '{' :: (inside ++ '}' :: more), context, enclosing⟩ header
        inside with
      | some (child, sheet) =>
        ([child, ⟨offset + header.length + inside.length + 2, more, context, enclosing⟩], sheet)
      | none => ([⟨offset + header.length + inside.length + 2, more, context, enclosing⟩], sheet) := by
  obtain ⟨hdrop, htake⟩ := hp.skipSpaces ('{' :: (inside ++ '}' :: more))
  have hseg := segmentFrom_append hp.unmarked hp.balanced (.inl rfl) (inside ++ '}' :: more)
  have hsize : insideLength pairs (offset + header.length) (inside ++ '}' :: more) =
      inside.length := by
    simp only [insideLength, hpair, List.length_append]
    omega
  have hrest : (inside ++ '}' :: more).drop (inside.length + 1) = more := by
    rw [← List.drop_drop, List.drop_left, List.drop_one, List.tail_cons]
  simp only [step, hdrop, htake, List.length_nil, Nat.add_zero, Sheet.segment, hseg, hsize, hrest,
    List.take_left]
  exact if_neg (by simp)

theorem enter_rule {sheet : Sheet} {frame : Frame} {header inside : Text} (hp : Plain header)
    (hat : header.head? ≠ some '@') :
    enter sheet frame header inside =
      some (⟨frame.offset + header.length + 1, inside, frame.context,
          sheet.rules.length :: frame.enclosing⟩,
        sheet.addRule { selectorText := header, rawText := header, offset := frame.offset
                        context := frame.context, enclosing := frame.enclosing }) := by
  simp [enter, hp.nonempty, hp.squeezed, hat, Text.trimRight_squeezed hp.squeezed]

/-- Only an at-rule has a name. -/
theorem head_of_atRuleName {header : Text} (h : atRuleName header ≠ []) :
    header.head? = some '@' := by
  unfold atRuleName at h
  simp only at h
  split at h
  · rfl
  · rfl
  · exact absurd rfl h

theorem enter_atRule {sheet : Sheet} {frame : Frame} {header inside : Text} (hp : Plain header)
    (hat : header.head? = some '@') (hs : atRuleName header ∉ skippedAtRules) :
    enter sheet frame header inside =
      some (⟨frame.offset + header.length + 1, inside,
        if atRuleName header ∈ conditionalAtRules then header else frame.context,
        frame.enclosing⟩, sheet) := by
  simp [enter, hp.nonempty, hp.squeezed, hat, hs]

theorem enter_skipped {sheet : Sheet} {frame : Frame} {header inside : Text} (hp : Plain header)
    (hs : atRuleName header ∈ skippedAtRules) : enter sheet frame header inside = none := by
  have hat : header.head? = some '@' :=
    head_of_atRuleName fun he => by rw [he] at hs; revert hs; decide
  simp [enter, hp.squeezed, hat, hs]

theorem not_skipped_of_conditional : ∀ name ∈ conditionalAtRules, name ∉ skippedAtRules := by
  decide

/-! ## Reading declarations -/

/-- Rules after the nearest of the rules at `enclosing` has taken declarations. -/
def adopt (enclosing : List Nat) (found : List Declaration) (rules : List Rule) : List Rule :=
  match enclosing with
  | [] => rules
  | parent :: _ => rules.modify parent fun rule =>
      { rule with declarations := rule.declarations ++ found }

theorem head_declaration {p : Text} (hp : isPropertyName p = true)
    (hspace : ∀ c ∈ p, isSpace c = false) (v : Text) :
    ∀ c rest, p ++ ':' :: v = c :: rest → isSpace c = false := by
  obtain ⟨d, q, rfl⟩ := List.exists_cons_of_ne_nil (propertyName_ne_nil hp)
  intro c rest hc
  rw [← (List.cons.inj hc).1]
  exact hspace d List.mem_cons_self

theorem trim_declaration {p v : Text} (hp : isPropertyName p = true)
    (hspace : ∀ c ∈ p, isSpace c = false) (hv : Plain v) :
    Text.trim (p ++ ':' :: v) = p ++ ':' :: v := by
  refine Text.trim_of_ends (head_declaration hp hspace v) fun d front hd => ?_
  obtain ⟨w, e, hw⟩ := List.eq_nil_or_concat v |>.resolve_left hv.nonempty
  rw [List.concat_eq_append] at hw
  have he : e = d := by
    rw [hw, show p ++ ':' :: (w ++ [e]) = (p ++ ':' :: w) ++ [e] by simp] at hd
    exact List.head_eq_of_cons_eq (List.append_inj' hd rfl).2
  exact Text.last_squeeze (t := v) (by rw [hv.squeezed, hw, he])

theorem ofSegment?_declaration {offset : Nat} {p v : Text} (hp : isPropertyName p = true)
    (hspace : ∀ c ∈ p, isSpace c = false) (hv : Plain v) :
    Declaration.ofSegment? offset (p ++ ':' :: v) = some {
      property := if ("--" : Text).isPrefixOf p then p else Text.lower p
      offset, value := v, important := isImportant v } := by
  have hcut := Text.cut?_of_not_mem (d := ':') (t := p)
    (fun hm => absurd rfl (propertyChar_quiet hp ':' hm).2.2.2.2.2.1) v
  have htake : p.takeWhile isSpace = [] := by
    cases p with
    | nil => rfl
    | cons c q => simp [hspace c (by simp)]
  simp [Declaration.ofSegment?, hcut, Text.trim_of_forall hspace, hp,
    Text.trim_squeezed hv.squeezed, htake]

theorem addSegment_declaration {sheet : Sheet} {frame : Frame} {p v : Text}
    (hp : isPropertyName p = true) (hspace : ∀ c ∈ p, isSpace c = false) (hv : Plain v) :
    sheet.addSegment frame (p ++ ':' :: v) =
      { sheet with
        rules := adopt frame.enclosing [{
          property := if ("--" : Text).isPrefixOf p then p else Text.lower p
          offset := frame.offset, value := v, important := isImportant v }] sheet.rules } := by
  have hat : (p ++ ':' :: v).head? ≠ some '@' := by
    obtain ⟨c, q, rfl⟩ := List.exists_cons_of_ne_nil (propertyName_ne_nil hp)
    simpa using (propertyChar_quiet hp c (by simp)).2.2.2.2.2.2
  rw [addSegment, trim_declaration hp hspace hv]
  simp only [beq_iff_eq, hat, if_false, ofSegment?_declaration hp hspace hv]
  cases frame.enclosing <;> rfl

theorem addSegment_statement {sheet : Sheet} {frame : Frame} {prelude : Text} (hp : Plain prelude)
    (hat : prelude.head? = some '@') :
    sheet.addSegment frame prelude =
      sheet.addStatement ⟨atRuleName prelude, prelude, frame.offset⟩ := by
  simp [addSegment, Text.trim_squeezed hp.squeezed, hat]

theorem step_declaration {pairs : List (Nat × Nat)} {p v context : Text} {offset : Nat}
    {enclosing : List Nat} (sheet : Sheet) (hp : isPropertyName p = true)
    (hspace : ∀ c ∈ p, isSpace c = false) (hv : Plain v) (more : Text) :
    step pairs ⟨offset, p ++ ':' :: (v ++ ';' :: more), context, enclosing⟩ sheet =
      ([⟨offset + p.length + v.length + 2, more, context, enclosing⟩],
        { sheet with
          rules := adopt enclosing [{
            property := if ("--" : Text).isPrefixOf p then p else Text.lower p
            offset, value := v, important := isImportant v }] sheet.rules }) := by
  obtain ⟨hm, hb⟩ := declaration_segment hp hv
  have hlength : offset + (p ++ ':' :: v).length + 1 = offset + p.length + v.length + 2 := by
    simp only [List.length_append, List.length_cons]
    omega
  rw [show p ++ ':' :: (v ++ ';' :: more) = (p ++ ':' :: v) ++ ';' :: more by simp,
    step_segment sheet (by simp) (head_declaration hp hspace v) hm hb,
    addSegment_declaration hp hspace hv, hlength]

theorem step_statement {pairs : List (Nat × Nat)} {prelude context : Text} {offset : Nat}
    {enclosing : List Nat} (sheet : Sheet) (hp : Plain prelude) (hat : prelude.head? = some '@')
    (more : Text) :
    step pairs ⟨offset, prelude ++ ';' :: more, context, enclosing⟩ sheet =
      ([⟨offset + prelude.length + 1, more, context, enclosing⟩],
        sheet.addStatement ⟨atRuleName prelude, prelude, offset⟩) := by
  have hhead : ∀ c rest, prelude = c :: rest → isSpace c = false :=
    fun _ _ he => Text.head_squeeze (hp.squeezed.trans he)
  rw [step_segment sheet hp.nonempty hhead hp.unmarked hp.balanced, addSegment_statement hp hat]

/-! ## The whole walk -/

@[simp] theorem length_adopt (enclosing : List Nat) (found : List Declaration) (rules : List Rule) :
    (adopt enclosing found rules).length = rules.length := by
  cases enclosing <;> simp [adopt]

@[simp] theorem adopt_nil (enclosing : List Nat) (rules : List Rule) :
    adopt enclosing [] rules = rules := by
  cases enclosing with
  | nil => rfl
  | cons parent more =>
    simp only [adopt, List.append_nil]
    exact List.modify_id parent rules

theorem adopt_append (enclosing : List Nat) (found more : List Declaration) (rules : List Rule) :
    adopt enclosing (found ++ more) rules = adopt enclosing more (adopt enclosing found rules) := by
  cases enclosing with
  | nil => rfl
  | cons parent rest => simp [adopt, List.modify_modify_eq, Function.comp_def]

/-- Declarations go to a rule that is there already, so rules added later do not matter. -/
theorem adopt_append_rules {enclosing : List Nat} {rules : List Rule}
    (h : ∀ parent ∈ enclosing.head?, parent < rules.length) (found : List Declaration)
    (more : List Rule) :
    adopt enclosing found (rules ++ more) = adopt enclosing found rules ++ more := by
  cases enclosing with
  | nil => rfl
  | cons parent rest =>
    have hlt : parent < rules.length := h parent (by simp)
    simp only [adopt]
    rw [List.modify_eq_take_cons_drop (by simp; omega), List.modify_eq_take_cons_drop hlt]
    simp [List.take_append_of_le_length (Nat.le_of_lt hlt), List.getElem_append_left hlt,
      List.drop_append_of_le_length (Nat.succ_le_of_lt hlt)]

/-- The rule that was added last takes declarations. -/
theorem adopt_last (rules : List Rule) (rule : Rule) (enclosing : List Nat)
    (found : List Declaration) :
    adopt (rules.length :: enclosing) found (rules ++ [rule]) =
      rules ++ [{ rule with declarations := rule.declarations ++ found }] := by
  simp only [adopt]
  rw [List.modify_eq_take_cons_drop (by simp)]
  simp

/-- A sheet after contents have been read that start at `offset`, under a condition and inside the
rules at `enclosing`. -/
def Body.addTo (offset : Nat) (context : Text) (enclosing : List Nat) (body : Body)
    (sheet : Sheet) : Sheet where
  rules := adopt enclosing (body.declarations offset) sheet.rules ++
    body.rules offset sheet.rules.length context enclosing
  statements := sheet.statements ++ body.statements offset

theorem le_length_addTo (offset : Nat) (context : Text) (enclosing : List Nat) (body : Body)
    (sheet : Sheet) :
    sheet.rules.length ≤ (body.addTo offset context enclosing sheet).rules.length := by
  simp [Body.addTo]

theorem addTo_rule {offset : Nat} {context header : Text} {enclosing : List Nat} {inside rest : Body}
    {sheet : Sheet} (h : ∀ parent ∈ enclosing.head?, parent < sheet.rules.length) :
    rest.addTo (offset + header.length + inside.render.length + 2) context enclosing
        (inside.addTo (offset + header.length + 1) context (sheet.rules.length :: enclosing)
          (sheet.addRule { selectorText := header, rawText := header, offset, context, enclosing })) =
      Body.addTo offset context enclosing (.block .rule header inside rest) sheet := by
  simp [Body.addTo, addRule, adopt_last, Body.declarations, Body.rules, Body.statements,
    adopt_append_rules h, Nat.add_assoc]

theorem addTo_atRule {offset : Nat} {context header : Text} {enclosing : List Nat}
    {inside rest : Body} {sheet : Sheet} {kind : BlockKind}
    (hkind : kind = .conditional ∨ kind = .transparent)
    (h : ∀ parent ∈ enclosing.head?, parent < sheet.rules.length) :
    rest.addTo (offset + header.length + inside.render.length + 2) context enclosing
        (inside.addTo (offset + header.length + 1)
          (if kind = .conditional then header else context) enclosing sheet) =
      Body.addTo offset context enclosing (.block kind header inside rest) sheet := by
  have hparent : ∀ parent ∈ enclosing.head?,
      parent < (adopt enclosing (inside.declarations (offset + header.length + 1)) sheet.rules).length := by
    simpa using h
  rcases hkind with rfl | rfl <;>
    simp [Body.addTo, Body.declarations, Body.rules, Body.statements, adopt_append,
      adopt_append_rules hparent]

theorem addTo_skipped {offset : Nat} {context header : Text} {enclosing : List Nat}
    {inside rest : Body} {sheet : Sheet} :
    rest.addTo (offset + header.length + inside.render.length + 2) context enclosing sheet =
      Body.addTo offset context enclosing (.block .skipped header inside rest) sheet := by
  simp [Body.addTo, Body.declarations, Body.rules, Body.statements]

theorem addTo_statement {offset : Nat} {context prelude : Text} {enclosing : List Nat} {rest : Body}
    {sheet : Sheet} :
    rest.addTo (offset + prelude.length + 1) context enclosing
        (sheet.addStatement ⟨atRuleName prelude, prelude, offset⟩) =
      Body.addTo offset context enclosing (.statement prelude rest) sheet := by
  simp [Body.addTo, addStatement, Body.declarations, Body.rules, Body.statements]

theorem addTo_declaration {offset : Nat} {context p v : Text} {enclosing : List Nat} {rest : Body}
    {sheet : Sheet} :
    rest.addTo (offset + p.length + v.length + 2) context enclosing
        { sheet with
          rules := adopt enclosing [{
            property := if ("--" : Text).isPrefixOf p then p else Text.lower p
            offset, value := v, important := isImportant v }] sheet.rules } =
      Body.addTo offset context enclosing (.declaration p v rest) sheet := by
  simp only [Body.addTo, Body.declarations, Body.rules, Body.statements, length_adopt,
    ← adopt_append, List.singleton_append]

/-- A frame whose body is a written tree is worked off, and the frames below it are left alone. -/
theorem walk_render {pairs : List (Nat × Nat)} {body : Body} {offset : Nat} {context : Text}
    {enclosing : List Nat} {frames : List Frame} {sheet : Sheet} (hw : body.Writable)
    (hp : body.Paired pairs offset)
    (hparent : ∀ parent ∈ enclosing.head?, parent < sheet.rules.length) :
    walk pairs (⟨offset, body.render, context, enclosing⟩ :: frames) sheet =
      walk pairs frames (body.addTo offset context enclosing sheet) := by
  induction body generalizing offset context enclosing frames sheet with
  | empty =>
    rw [walk]
    simp [Body.render, step, Body.addTo, Body.declarations, Body.rules, Body.statements]
  | block kind header inside rest ihInside ihRest =>
    obtain ⟨hheader, hkind, hinside, hrest⟩ := hw
    obtain ⟨hpair, hpinside, hprest⟩ := hp
    have hgrown : ∀ context' enclosing' (sheet' : Sheet), sheet.rules.length ≤ sheet'.rules.length →
        ∀ parent ∈ enclosing.head?, parent < (inside.addTo (offset + header.length + 1) context'
          enclosing' sheet').rules.length := by
      intro context' enclosing' sheet' hle parent hmem
      have h1 := hparent parent hmem
      have h2 := le_length_addTo (offset + header.length + 1) context' enclosing' inside sheet'
      omega
    rw [walk, Body.render, step_block sheet hheader hpair]
    cases kind with
    | rule =>
      have hat : header.head? ≠ some '@' := by simpa [BlockKind.announcedBy] using hkind
      simp only [enter_rule hheader hat, List.cons_append, List.nil_append]
      rw [ihInside hinside hpinside (by simp [addRule]),
        ihRest hrest hprest (hgrown _ _ _ (by simp [addRule])), addTo_rule hparent]
    | conditional =>
      have hname : atRuleName header ∈ conditionalAtRules := by
        simpa [BlockKind.announcedBy] using hkind
      have hat : header.head? = some '@' :=
        head_of_atRuleName fun he => by rw [he] at hname; revert hname; decide
      simp only [enter_atRule hheader hat (not_skipped_of_conditional _ hname), hname, if_true,
        List.cons_append, List.nil_append]
      rw [ihInside hinside hpinside hparent, ihRest hrest hprest (hgrown _ _ _ (Nat.le_refl _)),
        ← addTo_atRule (.inl rfl) hparent, if_pos rfl]
    | skipped =>
      have hname : atRuleName header ∈ skippedAtRules := by
        simpa [BlockKind.announcedBy] using hkind
      simp only [enter_skipped hheader hname, List.cons_append, List.nil_append]
      rw [ihRest hrest hprest hparent, addTo_skipped]
    | transparent =>
      simp only [BlockKind.announcedBy, Bool.and_eq_true, beq_iff_eq, Bool.not_eq_true',
        List.contains_eq_mem, decide_eq_false_iff_not] at hkind
      obtain ⟨⟨hat, hcond⟩, hskip⟩ := hkind
      simp only [enter_atRule hheader hat hskip, hcond, if_false, List.cons_append, List.nil_append]
      rw [ihInside hinside hpinside hparent, ihRest hrest hprest (hgrown _ _ _ (Nat.le_refl _)),
        ← addTo_atRule (.inr rfl) hparent, if_neg (by decide)]
  | declaration property value rest ih =>
    obtain ⟨⟨hname, hspace⟩, hv, hrest⟩ := hw
    rw [walk, Body.render, step_declaration sheet hname hspace hv, ← addTo_declaration]
    exact ih hrest hp (by simpa using hparent)
  | statement prelude rest ih =>
    obtain ⟨hprelude, hat, hrest⟩ := hw
    rw [walk, Body.render, step_statement sheet hprelude hat, ← addTo_statement]
    exact ih hrest hp hparent

theorem slash_not_mem_render {body : Body} (h : body.Writable) : '/' ∉ body.render := by
  have hplain : ∀ t : Text, (∀ c ∈ t, isMark c = false) → '/' ∉ t := by
    intro t ht hm
    exact absurd (ht '/' hm) (by decide)
  induction body with
  | empty => simp [Body.render]
  | block kind header inside rest ihInside ihRest =>
    obtain ⟨hheader, _, hinside, hrest⟩ := h
    simp [Body.render, hplain header hheader.unmarked, ihInside hinside, ihRest hrest]
  | declaration property value rest ih =>
    obtain ⟨⟨hname, _⟩, hv, hrest⟩ := h
    have hp := hplain property fun c hc => (propertyChar_quiet hname c hc).1
    simp [Body.render, hp, hplain value hv.unmarked, ih hrest]
  | statement prelude rest ih =>
    obtain ⟨hprelude, _, hrest⟩ := h
    simp [Body.render, hplain prelude hprelude.unmarked, ih hrest]

/-- Reading a written tree gives back its rules and statements: the rules in the order in which their
blocks open, each with its header, the rules around it, its condition and its own declarations. -/
theorem ofText_render (body : Body) (h : body.Writable) :
    Sheet.ofText body.render =
      { rules := body.rules 0 0 [] [], statements := body.statements 0 } := by
  have hmask : Comment.maskStyle body.render = body.render :=
    maskStyleFrom_code (slash_not_mem_render h) true
  rw [Sheet.ofText, hmask, walk_render h (paired_bracePairs h) (by simp), walk]
  simp [Body.addTo, adopt]

/-- A rule that goes on behind a rule and a condition inside it, next to a skipped block. -/
def nestedSheet : Body :=
  .statement "@charset x" <|
  .block .skipped "@-webkit-keyframes spin" (.block .rule "to" (.declaration "top" "1px" .empty) .empty) <|
  .block .rule "a:not([b]), c" (
    .declaration "Color" "red !important" <|
    .block .conditional "@media (min-width: 2px)" (
      .declaration "--Gap" "0" <|
      .block .rule "&:hover" (.declaration "top" "calc(1px + 2px)" .empty) .empty) <|
    .block .transparent "@starting-style" (.declaration "-x" "y" .empty) <|
    .declaration "left" "0" .empty) .empty

theorem ofText_render_nestedSheet :
    nestedSheet.Writable ∧
      Sheet.ofText nestedSheet.render =
        { rules := nestedSheet.rules 0 0 [] [], statements := nestedSheet.statements 0 } ∧
      (nestedSheet.rules 0 0 [] []).map (fun rule => (rule.context, rule.enclosing,
          rule.declarations.map (·.property))) =
        [([], [], ["color", "--Gap", "-x", "left"].map String.toList),
          ("@media (min-width: 2px)".toList, [0], ["top".toList])] := by
  have h : nestedSheet.Writable := by decide
  exact ⟨h, ofText_render nestedSheet h, by decide +kernel⟩

end ComponentAudit.Style
