import ScriptLint.Setting.Catalogue

/-!
# Sets of predefined globals

Each environment brings names that programs may use without declaring them; each name is writable
or not.
-/

namespace ScriptLint.Predefined

/-- Names with whether programs may assign to them. -/
abbrev GlobalSet := List (String × Bool)

/-- A set of names that programs must not assign to. -/
def readOnlySet (names : List String) : GlobalSet := names.map (·, false)

/-- The built-ins of the language, always present. -/
def languageSet : GlobalSet := readOnlySet [
    "Array", "ArrayBuffer", "Boolean", "DataView", "Date", "decodeURI", "decodeURIComponent",
    "encodeURI", "encodeURIComponent", "Error", "eval", "EvalError", "Float32Array",
    "Float64Array", "Function", "hasOwnProperty", "Infinity", "Int8Array", "Int16Array",
    "Int32Array", "isFinite", "isNaN", "JSON", "Map", "Math", "NaN", "Number", "Object",
    "parseFloat", "parseInt", "Promise", "Proxy", "RangeError", "ReferenceError", "Reflect",
    "RegExp", "Set", "String", "Symbol", "SyntaxError", "TypeError", "Uint8Array",
    "Uint8ClampedArray", "Uint16Array", "Uint32Array", "undefined", "URIError", "WeakMap",
    "WeakSet"]

/-- Names of the browser environment. -/
def browserSet : GlobalSet := [
    ("addEventListener", false), ("atob", false), ("blur", false), ("btoa", false),
    ("clearInterval", false), ("clearTimeout", false), ("close", false), ("CustomEvent", false),
    ("document", false), ("Element", false), ("Event", false), ("fetch", false),
    ("FileReader", false), ("focus", false), ("FormData", false), ("frames", false),
    ("getComputedStyle", false), ("history", false), ("HTMLElement", false), ("Image", false),
    ("localStorage", false), ("location", false), ("MutationObserver", false), ("name", true),
    ("navigator", false), ("Node", false), ("onbeforeunload", true), ("onblur", true),
    ("onerror", true), ("onfocus", true), ("onload", true), ("onresize", true),
    ("onunload", true), ("open", false), ("opener", true), ("parent", false),
    ("removeEventListener", false), ("requestAnimationFrame", false), ("screen", false),
    ("scroll", false), ("self", false), ("sessionStorage", false), ("setInterval", false),
    ("setTimeout", false), ("status", true), ("top", false), ("URL", false), ("WebSocket", false),
    ("window", false), ("Worker", false), ("XMLHttpRequest", false)]

/-- Names of the server environment. -/
def nodeSet : GlobalSet := [
    ("__dirname", false), ("__filename", false), ("Buffer", false), ("clearImmediate", false),
    ("clearInterval", false), ("clearTimeout", false), ("console", false), ("exports", true),
    ("global", false), ("GLOBAL", false), ("module", false), ("process", false),
    ("require", false), ("setImmediate", false), ("setInterval", false), ("setTimeout", false)]

/-- Names used while developing. -/
def develSet : GlobalSet := readOnlySet [
    "alert", "confirm", "console", "Debug", "opera", "prompt"]

/-- Names of the library that the setting is called after. -/
def jquerySet : GlobalSet := readOnlySet [
    "$", "jQuery"]

/-- Names of worker scripts. -/
def workerSet : GlobalSet := [
    ("importScripts", true), ("onmessage", true), ("postMessage", true), ("self", true),
    ("FileReaderSync", false)]

/-- Widely available names outside the standard. -/
def nonstandardSet : GlobalSet := readOnlySet [
    "escape", "unescape"]

/-- The set that an environment brings; the other settings bring none. -/
def environment? : Setting → Option GlobalSet
  | .browser => some browserSet
  | .node => some nodeSet
  | .devel => some develSet
  | .jquery => some jquerySet
  | .worker => some workerSet
  | .nonstandard => some nonstandardSet
  | _ => none

end ScriptLint.Predefined
