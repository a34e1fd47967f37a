import ComponentAudit.Component.Attribute
import ComponentAudit.Position

/-!
The script and style elements of a component file. Elements of one kind are found from left to right
without regard to nesting: an opening tag, its first `>`, and the first closing tag after it. An
opening tag that is never closed ends the search. Style elements that start inside a script element
are dropped.
-/

namespace ComponentAudit

/-- The span of an element, and of the body between its tags. -/
structure ElementSpan where
  elementStart : Nat
  bodyStart : Nat
  bodyEnd : Nat
  elementEnd : Nat
  deriving DecidableEq

inductive SearchEnd where
  | exhausted
  | unterminatedTag (start : Nat)
  | missingClose (tagEnd : Nat)

/-- The elements of one kind, and why no more were found. -/
structure ElementSearch where
  spans : List ElementSpan
  stop : SearchEnd

def isTagNameEnd (c : Char) : Bool :=
  c == ' ' || c == '\t' || c == '\r' || c == '\n' || c == '>' || c == '/'

/-- Whether a text opens with the tag `<tag`, and not with a longer name. -/
def opensTag (tag t : Text) : Bool :=
  ('<' :: tag).isPrefixOf t && !(t.drop (tag.length + 1)).head?.any (!isTagNameEnd ·)

/-- The element at the start of a text that opens with the tag and starts at `offset`. -/
def elementAt (tag : Text) (offset : Nat) (t : Text) : Except SearchEnd ElementSpan :=
  match Text.cut? ">" (t.drop (tag.length + 1)) with
  | none => .error (.unterminatedTag offset)
  | some (inTag, rest) =>
    let tagEnd := offset + 1 + tag.length + inTag.length
    match Text.cut? ("</" ++ tag ++ ">") rest with
    | none => .error (.missingClose tagEnd)
    | some (body, _) =>
      let bodyEnd := tagEnd + 1 + body.length
      .ok ⟨offset, tagEnd + 1, bodyEnd, bodyEnd + tag.length + 3⟩

/-- Searches the rest of a text from `offset` on; `covered` counts the characters that the last
element still covers. -/
def elementsFrom (tag : Text) (covered offset : Nat) : Text → ElementSearch
  | [] => ⟨[], .exhausted⟩
  | c :: rest =>
    match covered with
    | covered + 1 => elementsFrom tag covered (offset + 1) rest
    | 0 =>
      if opensTag tag (c :: rest) then
        match elementAt tag offset (c :: rest) with
        | .error stop => ⟨[], stop⟩
        | .ok span =>
          let more := elementsFrom tag (span.elementEnd - offset - 1) (offset + 1) rest
          ⟨span :: more.spans, more.stop⟩
      else elementsFrom tag 0 (offset + 1) rest

def elements (tag t : Text) : ElementSearch := elementsFrom tag 0 0 t

structure ScriptRegion where
  span : ElementSpan
  language : Option Text
  isModuleContext : Bool
  attributes : Attributes

/-- A style element, its number among the style elements, and what its tag says. -/
structure StyleRegion where
  span : ElementSpan
  index : Nat
  language : Text
  isScoped : Bool
  attributes : Attributes
  startPosition : Option Position := none
  endPosition : Option Position := none

/-- The name under which findings refer to a style element. -/
def StyleRegion.label (region : StyleRegion) : Text :=
  (if region.isScoped then "Scoped Block " else "Global Block ") ++ Text.ofNat (region.index + 1)

/-- The text between two offsets. -/
def Text.slice (t : Text) (start stop : Nat) : Text := (t.drop start).take (stop - start)

def ElementSpan.body (span : ElementSpan) (t : Text) : Text := t.slice span.bodyStart span.bodyEnd

def ElementSpan.tag (span : ElementSpan) (t : Text) : Text :=
  t.slice span.elementStart span.bodyStart

/-- Whether an element starts inside another one. -/
def ElementSpan.startsInside (span container : ElementSpan) : Bool :=
  container.elementStart ≤ span.elementStart && span.elementStart < container.elementEnd

def ScriptRegion.ofSpan (t : Text) (span : ElementSpan) : ScriptRegion :=
  let attributes := Attributes.ofTag (span.tag t) "script"
  { span
    language := attributes.get? "lang"
    isModuleContext := attributes.get? "context" == some "module" || attributes.has "module"
    attributes }

def isHyphenWordChar (c : Char) : Bool := isWordChar c || c == '-'

/-- Whether a tag holds the word `global`, not as part of a longer hyphenated word. -/
def mentionsGlobal (tag : Text) : Bool :=
  !(Cursor.collect (fun c => do
      if c.prev?.any isHyphenWordChar then none
      else
        let stop ← c.expect? "global"
        if stop.peek?.any isHyphenWordChar then none else some ((), stop)) tag).isEmpty

/-- A style region from its number and span. A style element without a language is plain CSS. -/
def StyleRegion.ofSpan (t : Text) (index : Nat) (span : ElementSpan) : StyleRegion :=
  let attributes := Attributes.ofTag (span.tag t) "style"
  let language := (attributes.get? "lang").getD []
  { span, index, attributes
    language := if language.isEmpty then "css" else language
    isScoped := !mentionsGlobal (span.tag t) }

structure Regions where
  scripts : List ScriptRegion
  styles : List StyleRegion

def Regions.ofText (t : Text) : Regions :=
  let scripts := (elements "script" t).spans
  let styles := (elements "style" t).spans.filter fun span => !scripts.any (span.startsInside ·)
  { scripts := scripts.map (ScriptRegion.ofSpan t)
    styles := styles.zipIdx.map fun (span, index) => StyleRegion.ofSpan t index span }

end ComponentAudit
