import ComponentAudit.Component.Analysis
import ComponentAudit.Proofs.Script.Name
import Mathlib.Data.List.Nodup

/-! # Variables that are taken for functions

Names are searched for twice, as names of variables and as names of functions, and the search for
variables passes over the bindings of function values alone. So a function found by another search may
stand at the name of a variable: a search for members takes the arrow of a function type for the value
of a member (`nameOffset_shared`). -/

namespace ComponentAudit

deriving instance DecidableEq for Cursor

/-! ## Functions -/

/-- A name with a parenthesis behind it, white space apart. -/
def ParenthesisAt (script name : Text) (offset : Nat) : Prop :=
  ∃ behind, (Cursor.seek script offset).ReadsName name behind ∧ behind.nextInk? = some '('

/-- A name that looks like the member of an object: a single colon stands behind it, and behind the
colon what reads as an arrow function, be it one or the type of one. A name that cannot be a member, a
type literal around the name and a type keyword behind the arrow speak against it. -/
structure ArrowAt (script name : Text) (offset : Nat) : Prop where
  isIdentifier : Import.isIdentifier name = true
  isFree : (Vocabulary.isControlKeyword name || name == "case" || name == "default") = false
  isOutside : TypeContext.insideTypeLiteral (Cursor.seek script offset) = false
  arrow : ∃ behind colon body isAsync, (Cursor.seek script offset).ReadsName name behind ∧
    behind.skipSpaces.expect? ":" = some colon ∧ colon.peek? ≠ some ':' ∧
    Statement.arrow? colon.skipSpaces = some (body, isAsync) ∧
    TypeContext.startsWithTypeKeyword (body.after.take 16) = false

namespace Function

theorem parenthesisAt_of_expect? {place behind stop : Cursor} {name : Text}
    (hname : place.identifier? = some (name, behind)) (hparen : behind.skipSpaces.expect? "(" = some stop) :
    ParenthesisAt place.text name place.offset :=
  ⟨behind, place.seek_offset.symm ▸ (Cursor.identifier?_eq_some.mp hname).2,
    (Cursor.expect?_eq_some.mp hparen).peek?⟩

theorem parenthesisAt_declaration? {c stop : Cursor} {found : FoundFunction}
    (h : declaration? c = some (found, stop)) : ParenthesisAt c.text found.name found.offset := by
  obtain ⟨place, behind, htext, hoffset, hname, hparen⟩ := exists_of_declaration? h
  rw [hoffset, ← htext]
  exact parenthesisAt_of_expect? hname hparen

theorem parenthesisAt_methods {script : Text} {found : FoundFunction} (h : found ∈ methods script) :
    ParenthesisAt script found.name found.offset := by
  obtain ⟨c, behind, stop, rfl, hoffset, hname, hparen⟩ := exists_of_mem_methods h
  rw [hoffset]
  exact parenthesisAt_of_expect? hname hparen

theorem arrowAt_memberFunctions {script : Text} {found : FoundFunction} (h : found ∈ memberFunctions script) :
    ArrowAt script found.name found.offset := by
  obtain ⟨name, place, colon, body, isAsync, hmember, hfree, harrow, htype, houtside, rfl⟩ :=
    mem_memberFunctions.mp h
  obtain ⟨c, stop, rfl, hr⟩ := Cursor.mem_collect hmember
  obtain ⟨rfl, rfl, -, hsingle, behind, hname, hcolon⟩ := member?_eq_some.mp hr
  obtain ⟨hident, hreads⟩ := Cursor.identifier?_eq_some.mp hname
  have hplace := place.seek_offset
  exact ⟨hident, hfree, hplace.symm ▸ houtside, behind, colon, body, isAsync, hplace.symm ▸ hreads,
    hcolon, hsingle, harrow, htype⟩

/-- No member reaches over the start of a name behind a gap. -/
theorem clear_member? {c stop place behind : Cursor} {name : Text} {found : Text × Cursor × Cursor}
    (hreads : place.ReadsName name behind) (hgap : place.FollowsGap) (htext : c.text = place.text)
    (h : member? c = some (found, stop)) (hlt : c.offset < place.offset) : stop.offset ≤ place.offset := by
  obtain ⟨own, start, rest⟩ := found
  obtain ⟨-, -, -, -, ownBehind, hown, hcolon⟩ := member?_eq_some.mp h
  have hown := (Cursor.identifier?_eq_some.mp hown).2
  obtain ⟨spaces, hblank, hspaces⟩ := Cursor.reads_skipSpaces ownBehind
  have hall := hown.reads.trans (hspaces.trans (Cursor.expect?_eq_some.mp hcolon))
  rw [← Nat.not_lt]
  intro hin
  obtain ⟨front, back, hsplit, hfront, hback, hafter⟩ := hall.inside htext (Nat.le_of_lt hlt) hin
  -- the name at the place opens with an identifier character, which no gap or colon holds
  obtain ⟨x, more, rfl⟩ := List.exists_cons_of_ne_nil hback
  have hx : isIdentChar x = true := by
    obtain ⟨first, rest, rfl⟩ := List.exists_cons_of_ne_nil hreads.isName.1
    have hsame := hafter.symm.trans hreads.reads.after
    rw [(List.cons.inj hsame).1]
    exact hreads.isName.2 first List.mem_cons_self
  rcases List.append_eq_append_iff.mp hsplit with ⟨common, -, hmark⟩ | ⟨common, hname, -⟩
  · have hmem : x ∈ spaces ++ ":".toList := hmark ▸ List.mem_append_right common List.mem_cons_self
    rcases List.mem_append.mp hmem with hmem | hmem
    · cases (isIdentChar_of_isSpace (hblank x hmem)).symm.trans hx
    · obtain rfl := List.mem_singleton.mp hmem
      exact absurd hx (by decide +kernel)
  · have hne : front ≠ [] := by
      rintro rfl
      rw [List.length_nil] at hfront
      omega
    have hplace : place = ⟨front.reverse ++ c.before, x :: more ++ stop.after⟩ := by
      refine Cursor.eq_of_text_of_offset ?_ ?_
      · rw [← htext, Cursor.text, hall.after, hsplit]
        simp [Cursor.text]
      · simp only [Cursor.offset, List.length_append, List.length_reverse] at hfront hlt ⊢
        omega
    obtain ⟨init, last, rfl⟩ := List.eq_nil_or_concat front |>.resolve_left hne
    have hlast : isIdentChar last = true := hown.isName.2 last (by simp [hname])
    have hprev : place.prev? = some last := by
      rw [hplace]
      simp [Cursor.prev?]
    cases (hgap.isIdentChar_prev hprev).symm.trans hlast

/-- A member is found wherever one can be read behind a gap. -/
theorem exists_memberFunctions_of_arrowAt {script name : Text} {offset : Nat}
    (hbound : BoundAt script name offset) (h : ArrowAt script name offset) :
    ∃ f ∈ memberFunctions script, f.name = name ∧ f.offset = offset := by
  obtain ⟨behind, hbinds⟩ := hbound
  obtain ⟨behind', colon, body, isAsync, hreads, hcolon, hsingle, harrow, htype⟩ := h.arrow
  obtain ⟨-, rfl⟩ := hbinds.readsName.unique hreads
  have hgap := hbinds.followsGap (Cursor.expect?_eq_some.mp hcolon).peek?
  have hname := Cursor.identifier?_eq_some.mpr ⟨h.isIdentifier, hreads⟩
  have hmore : (Cursor.seek script offset).after ≠ [] := by
    rw [hreads.reads.after]
    exact List.append_ne_nil_of_left_ne_nil hreads.isName.1 _
  have hmember := member?_eq_some.mpr ⟨rfl, rfl, hgap.isFresh, hsingle, behind, hname, hcolon⟩
  have hmem := Cursor.mem_collect_of_clear hmember hmore
    fun c found stop htext hr hlt => clear_member? hreads hgap htext hr hlt
  rw [Cursor.text_seek] at hmem
  refine ⟨_, mem_memberFunctions.mpr ⟨name, _, colon, body, isAsync, hmem, h.isFree, harrow, htype,
    h.isOutside, rfl⟩, rfl, ?_⟩
  have hlt : offset < script.length := by
    rw [← Nat.not_le]
    exact fun hle => hmore (List.drop_eq_nil_of_le hle)
  exact (Cursor.offset_seek script offset).trans (Nat.min_eq_left (Nat.le_of_lt hlt))

theorem name_unique {script : Text} {f g : FoundFunction} (hf : f ∈ findAll script)
    (hg : g ∈ findAll script) (h : f.name = g.name) : f = g :=
  List.inj_on_of_nodup_map (nodup_keepFirstFrom FoundFunction.name [] _).2 hf hg h

end Function

namespace Variable

/-- The offsets at which function values are bound. -/
def functionOffsets (script : Text) : List Nat := (Function.boundFunctions script).map (·.offset)

section Shared

variable {script : Text} {v : FoundVariable} (hv : v ∈ findAll script (functionOffsets script))
include hv

/-- A function at a variable was found by another search than that for bindings. -/
theorem arrowAt_or_parenthesisAt {f : FoundFunction} (hf : f ∈ Function.findAll script)
    (h : f.offset = v.nameOffset) :
    ArrowAt script f.name f.offset ∨ ParenthesisAt script f.name f.offset := by
  have hmem := mem_of_mem_keepFirstFrom hf
  simp only [List.mem_append] at hmem
  rcases hmem with ((hdeclared | hbound) | hmember) | hmethod
  · obtain ⟨c, stop, rfl, hr⟩ := Cursor.mem_collect hdeclared
    exact .inr (Function.parenthesisAt_declaration? hr)
  · -- the search for variables passes over the bindings of function values
    have hfree := (List.mem_filter.mp (mem_of_mem_keepFirstFrom hv)).2
    have hskipped : v.nameOffset ∈ functionOffsets script := h ▸ List.mem_map_of_mem hbound
    exact absurd hskipped (by simpa using hfree)
  · exact .inl (Function.arrowAt_memberFunctions hmember)
  · exact .inr (Function.parenthesisAt_methods hmethod)

/-- A function at a variable bears its name. -/
theorem of_shared {f : FoundFunction} (hf : f ∈ Function.findAll script) (h : f.offset = v.nameOffset) :
    f.name = v.name ∧
      (ArrowAt script v.name v.nameOffset ∨ ParenthesisAt script v.name v.nameOffset) := by
  have hshape := arrowAt_or_parenthesisAt hv hf h
  rw [h] at hshape
  have hreads : ∃ behind, (Cursor.seek script v.nameOffset).ReadsName f.name behind := by
    rcases hshape with harrow | ⟨behind, hreads, -⟩
    · obtain ⟨behind, _, _, _, hreads, -⟩ := harrow.arrow
      exact ⟨behind, hreads⟩
    · exact ⟨behind, hreads⟩
  obtain ⟨behind, hbinds⟩ := boundAt_findAll hv
  obtain ⟨other, hreads⟩ := hreads
  have hname := (hreads.unique hbinds.readsName).1
  exact ⟨hname, hname ▸ hshape⟩

/-- A name with an arrow behind it is that of a function. -/
theorem exists_function_of_arrowAt (h : ArrowAt script v.name v.nameOffset) :
    ∃ f ∈ Function.findAll script, f.name = v.name := by
  obtain ⟨f, hf, hname, -⟩ := Function.exists_memberFunctions_of_arrowAt (boundAt_findAll hv) h
  have hsearched : f ∈ Cursor.collect Function.declaration? script ++ Function.boundFunctions script ++
      Function.memberFunctions script ++ Function.methods script :=
    List.mem_append_left _ (List.mem_append_right _ hf)
  obtain ⟨g, hg, hsame⟩ := @exists_mem_keepFirstFrom _ FoundFunction.name [] _ _ hsearched List.not_mem_nil
  exact ⟨g, hg, hsame.trans hname⟩

end Shared

/-- A function stands at a variable only under its name, and only if an arrow behind a colon or a
parenthesis follows the name. The type of a variable may be such an arrow: then a function does stand at
the variable, unless the function of this name was found at another place first. -/
theorem nameOffset_shared {t : Text} {index : LineIndex} {region : ScriptRegion} {v : Variable}
    (hv : v ∈ (Analysis.declarations t index region).scriptVariables) :
    let script := Comment.maskScript (region.span.body t)
    let functions := (Analysis.declarations t index region).functions
    ∃ offset, v.nameOffset = region.span.bodyStart + offset ∧
      (∀ f ∈ functions, f.offset = v.nameOffset →
        f.name = v.name ∧ (ArrowAt script v.name offset ∨ ParenthesisAt script v.name offset)) ∧
      (ArrowAt script v.name offset →
        ((∃ f ∈ functions, f.offset = v.nameOffset) ↔
          ∀ f ∈ functions, f.name = v.name → f.offset = v.nameOffset)) := by
  intro script functions
  obtain ⟨found, hfound, rfl⟩ := List.mem_map.mp hv
  refine ⟨found.nameOffset, rfl, fun f hf hsame => ?_, fun harrow => ⟨?_, fun honly => ?_⟩⟩
  · obtain ⟨g, hg, rfl⟩ := List.mem_map.mp hf
    exact of_shared hfound hg (Nat.add_left_cancel hsame)
  · rintro ⟨f, hf, hsame⟩ other hother hname
    obtain ⟨g, hg, rfl⟩ := List.mem_map.mp hf
    obtain ⟨g', hg', rfl⟩ := List.mem_map.mp hother
    have hown := (of_shared hfound hg (Nat.add_left_cancel hsame)).1
    obtain rfl := Function.name_unique hg hg' (hown.trans hname.symm)
    exact hsame
  · obtain ⟨g, hg, hname⟩ := exists_function_of_arrowAt hfound harrow
    obtain ⟨f, hf, hname⟩ : ∃ f ∈ functions, f.name = found.name :=
      ⟨_, List.mem_map.mpr ⟨g, hg, rfl⟩, hname⟩
    exact ⟨f, hf, honly f hf hname⟩

/-- A prop whose type is an arrow, behind a plain variable. -/
def propScript : Text := "let n: T; export let f: (n) => T = g;"

theorem arrowAt_propScript : ArrowAt propScript "f" 21 := by
  have hname : IsName "f" := Import.isName_of_isIdentifier (by decide +kernel)
  have hpeek : (Cursor.seek propScript 22).peek? = some ':' := by decide +kernel
  refine ⟨by decide +kernel, by decide +kernel, by decide +kernel, Cursor.seek propScript 22,
    Cursor.seek propScript 23, Cursor.seek propScript 30, false, ⟨hname, ?_, fun x hx => ?_⟩, ?_⟩
  · constructor <;> decide +kernel
  · obtain rfl := Option.some.inj (hpeek.symm.trans hx)
    decide +kernel
  · decide +kernel

/-- The prop is found once more, as a function. -/
theorem nameOffset_shared_prop :
    let source : Text := "<script>" ++ propScript ++ "</script>"
    let region : ScriptRegion := ⟨⟨0, 8, 45, 54⟩, none, false, []⟩
    let found := Analysis.declarations source (LineIndex.ofText source) region
    ∃ v ∈ found.scriptVariables, v.name = "f" ∧
      ArrowAt (Comment.maskScript (region.span.body source)) "f" 21 ∧
      ∃ f ∈ found.functions, f.offset = v.nameOffset := by
  intro source region found
  have hfirst : found.scriptVariables.head?.map (fun v => (v.name, v.nameOffset)) =
      some ("f".toList, 29) := by decide +kernel
  obtain ⟨v, hv, he⟩ := Option.map_eq_some_iff.mp hfirst
  simp only [Prod.mk.injEq] at he
  obtain ⟨hname, hoffset⟩ := he
  have hmem : v ∈ found.scriptVariables := List.mem_of_mem_head? hv
  have hfunctions : found.functions.map (fun f => (f.name, f.offset)) = [("f".toList, 29)] := by
    decide +kernel
  have hscript : Comment.maskScript (region.span.body source) = propScript := by decide +kernel
  have harrow : ArrowAt (Comment.maskScript (region.span.body source)) "f" 21 :=
    hscript.symm ▸ arrowAt_propScript
  obtain ⟨offset, hplace, -, hiff⟩ := nameOffset_shared hmem
  obtain rfl : offset = 21 := by
    have hbody : region.span.bodyStart = 8 := rfl
    omega
  rw [hname] at hiff
  refine ⟨v, hmem, hname, harrow, (hiff harrow).mpr fun f hf hown => ?_⟩
  have hpair := List.mem_map_of_mem (f := fun f : Function => (f.name, f.offset)) hf
  rw [hfunctions, List.mem_singleton, Prod.mk.injEq] at hpair
  exact hpair.2.trans hoffset.symm

/-- A plain variable whose type is an arrow is reported as a function at the same offset. -/
theorem nameOffset_shared_plain :
    let source : Text := "<script lang=\"ts\">let f: () => Foo;</script>"
    let region : ScriptRegion := ⟨⟨0, 18, 35, 44⟩, some "ts", false, [("lang", "ts")]⟩
    let found := Analysis.declarations source (LineIndex.ofText source) region
    found.scriptVariables.map Variable.nameOffset = [22] ∧ found.functions.map Function.offset = [22] := by
  decide +kernel

end Variable

end ComponentAudit
