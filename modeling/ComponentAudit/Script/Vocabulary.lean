import ComponentAudit.Text.Basic

/-!
Word lists that tell declarations from what merely looks like one: control keywords, methods of the
platform, names of coordinates and sizes, and the keywords of simple types.
-/

namespace ComponentAudit.Vocabulary

/-- Keywords that stand in front of a parenthesis without being a function's name. -/
def controlKeywords : List Text := [
  "if", "while", "for", "switch", "catch", "try", "with", "do",
  "function", "return", "await", "typeof", "new", "else"]

def elementMethods : List Text := [
  "contains", "closest", "querySelector", "querySelectorAll", "getElementById",
  "getElementsByClassName", "getElementsByTagName", "addEventListener", "removeEventListener",
  "appendChild", "removeChild", "insertBefore", "cloneNode", "setAttribute", "getAttribute",
  "removeAttribute", "focus", "blur", "click", "submit", "reset"]

def stringMethods : List Text := [
  "trim", "startsWith", "endsWith", "includes", "indexOf", "lastIndexOf", "substring", "substr",
  "slice", "split", "replace", "replaceAll", "toLowerCase", "toUpperCase", "charAt", "charCodeAt"]

def arrayMethods : List Text := [
  "push", "pop", "shift", "unshift", "splice", "concat", "join", "reverse", "sort", "filter", "map",
  "reduce", "forEach", "find", "findIndex", "some", "every"]

def objectMethods : List Text :=
  ["keys", "values", "entries", "hasOwnProperty", "toString", "valueOf"]

def globalFunctions : List Text := [
  "isArray", "parseInt", "parseFloat", "isNaN", "isFinite", "encodeURIComponent",
  "decodeURIComponent", "setTimeout", "clearTimeout", "setInterval", "clearInterval"]

/-- Functions and methods of the platform, which are never reported. -/
def builtinMethods : List Text :=
  elementMethods ++ stringMethods ++ arrayMethods ++ objectMethods ++ globalFunctions

def geometryNames : List Text :=
  ["x", "y", "z", "width", "height", "top", "left", "right", "bottom"]

def typeKeywords : List Text := [
  "number", "string", "boolean", "object", "any", "void", "null", "undefined", "unknown", "never"]

def isControlKeyword (name : Text) : Bool := controlKeywords.contains name

end ComponentAudit.Vocabulary
