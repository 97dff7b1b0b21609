import HotComponents.Component.Compile
import HotComponents.Text.Literal

/-!
# A small component language

A compiler for components that are a script block, a style block and markup around them. It is a
function of its input alone.

* Comments, from `<!--` to `-->` or the end, are left out.
* The first `<script>` block is the body of the module; its lines that begin with `WARN ` are
  warnings.
* The first `<style>` block of what remains is the stylesheet; its lines that begin with
  `@import "` name dependencies.
* The rest is the template, written as a literal.
* `SYNTAX_ERROR` anywhere, also in a comment, is an error at its first place.

Main statement: `compile_eq_error_iff`, a compile fails exactly when the error word occurs.
-/

namespace HotComponents.Markup

/-- The word that makes a component fail. -/
def errorWord : List Char := "SYNTAX_ERROR".toList

/-- The place behind a text: its lines and the octets of its last line. -/
def placeBehind (before : List Char) : Location :=
  let lines := Text.splitOn '\n' before
  ⟨lines.length, (Text.encode (lines.getLastD [])).length⟩

/-- The text from a comment's end on, if a comment begins the given text. -/
def afterComment (rest : List Char) : List Char :=
  match Text.splitAround? "-->".toList rest with
  | some (_, after) => after
  | none => []

/-- A text without its comments, of which there are at most `fuel`. -/
def stripCommentsUpTo : Nat → List Char → List Char
  | 0, cs => cs
  | fuel + 1, cs =>
    match Text.splitAround? "<!--".toList cs with
    | none => cs
    | some (before, rest) => before ++ stripCommentsUpTo fuel (afterComment ("<!--".toList ++ rest))

/-- A text without its comments. -/
def stripComments (cs : List Char) : List Char := stripCommentsUpTo cs.length cs

/-- The body of the first block of a tag, and the text without that block. A block that is not
closed is no block. -/
def takeBlock (tag : String) (cs : List Char) : List Char × List Char :=
  match Text.splitAround? ("<" ++ tag ++ ">").toList cs with
  | none => ([], cs)
  | some (before, rest) =>
    match Text.splitAround? ("</" ++ tag ++ ">").toList rest with
    | none => ([], cs)
    | some (body, after) => (body, before ++ after)

/-- What stands behind a word at the beginning of trimmed lines. -/
def behindWord (word : String) (cs : List Char) : List (List Char) :=
  (Text.lines cs).filterMap fun line => Text.stripPrefix? word.toList (Text.trim line)

/-- The warnings of a script. -/
def warnings (script : List Char) : List Warning :=
  (behindWord "WARN " script).map fun text => { message := String.ofList text }

/-- The dependencies of a style block: what its import lines name before the closing quote. -/
def dependencies (style : List Char) : List FilePath :=
  (behindWord "@import \"" style).map fun rest => .ofChars (rest.takeWhile (· ≠ '"'))

/-- The generated module. -/
def module (target : Target) (script markup : List Char) : String :=
  "// " ++ (if target = .ssr then "ssr" else "dom") ++ "\nconst template = " ++
    String.ofList (Text.literal (Text.trim markup)) ++ ";\n" ++ String.ofList (Text.trim script) ++
    "\nexport default template;\n"

/-- The output for a component without the error word. -/
def output (input : CompileInput) : CompileOutput :=
  let (script, rest) := takeBlock "script" (stripComments input.code.toList)
  let (style, markup) := takeBlock "style" rest
  let css := Text.trim style
  let js := module input.target script markup
  let injected :=
    if css.isEmpty then "" else "inject_css(" ++ String.ofList (Text.literal css) ++ ");\n"
  { js := { text := if input.css = .injected then js ++ injected else js }
    css := if input.css = .external then some { text := String.ofList css } else none
    warnings := warnings script
    dependencies := dependencies style }

/-- Compiles a component. -/
def compile (input : CompileInput) : CompileResult :=
  match Text.splitAround? errorWord input.code.toList with
  | some (before, _) =>
    .error { message := "unexpected token", location := some (placeBehind before) }
  | none => .ok (output input)

theorem compile_eq_error_iff {input : CompileInput} :
    (∃ failure, compile input = .error failure) ↔
      (Text.splitAround? errorWord input.code.toList).isSome := by
  unfold compile
  split <;> simp_all

end HotComponents.Markup
