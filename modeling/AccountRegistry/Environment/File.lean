import AccountRegistry.Environment.Basic
import AccountRegistry.Text.Content
import AccountRegistry.Text.Pattern

/-!
# Environment files

A file sets variables in lines `KEY = value` or `KEY: value`, with an optional `export` in front
and an optional comment behind.  A quoted value may run over several lines; an unquoted one ends
before a `#`.  Whatever does not fit is skipped, and of several values the last counts.
-/

namespace AccountRegistry.EnvironmentFile

open Pattern

/-- Blank space, if there is any. -/
def blanks : Pattern := .many (.one Blank.isBlank)

/-- Letters, digits, underscores, dots and dashes. -/
def isKeyChar (c : Char) : Bool :=
  ('a' ≤ c && c ≤ 'z') || ('A' ≤ c && c ≤ 'Z') || ('0' ≤ c && c ≤ '9') || c == '_' ||
    c == '.' || c == '-'

/-- The characters of an unquoted value. -/
def isPlainChar (c : Char) : Bool :=
  c != '#' && c != '\r' && c != '\n'

/-- A quoted text; a backslash takes a quote after it into the text. -/
def quoted (quote : Char) : Pattern :=
  .inOrder [blanks, .char quote,
    .many (.alt (.seq (.char '\\') (.char quote)) (.one (· != quote))), .char quote]

/-- What stands between a key and its value. -/
def separator : Pattern :=
  .alt (.inOrder [blanks, .char '=', .few (.one Blank.isBlank)])
    (.inOrder [.char ':', .one Blank.isBlank, .few (.one Blank.isBlank)])

/-- The three characters that quote values. -/
def quotes : List Char := ['\x27', '"', '\x60']

/-- A value with its quotes. -/
def value : Pattern :=
  quotes.foldr (fun quote rest => .alt (quoted quote) rest) (.atLeastOnce (.one isPlainChar))

/-- A comment up to the end of its line. -/
def comment : Pattern :=
  .seq (.char '#') (.many (.one fun c => !Blank.isLineEnd c))

/-- The word `export` in front of a key. -/
def exportMark : Pattern :=
  .seq (.word "export") (.atLeastOnce (.one Blank.isBlank))

/-- A setting: slot 1 captures the key and slot 2 the value. -/
def setting : Pattern :=
  .inOrder [.lineStart, blanks, .optional exportMark, .capture 1 (.atLeastOnce (.one isKeyChar)),
    separator, .optional (.capture 2 value), blanks, .optional comment, .lineEnd]

/-- Text between two quotes of one kind, from the start of a line to the end of one. -/
def enclosed : Pattern :=
  quotes.foldr (fun quote rest =>
    .alt (.inOrder [.lineStart, .char quote, .capture 1 (.many (.one fun _ => true)),
      .char quote, .lineEnd]) rest) (.one fun _ => false)

/-- The text with every line end written as a line feed. -/
def normalized : List Char → List Char
  | '\r' :: '\n' :: rest => '\n' :: normalized rest
  | '\r' :: rest => '\n' :: normalized rest
  | c :: rest => c :: normalized rest
  | [] => []

/-- The text without the quotes that enclose it. -/
def unquoted (text : List Char) : List Char :=
  (enclosed.split text).flatMap fun piece =>
    match piece with
    | .plain c => [c]
    | .found captures => (captured captures 1).getD []

/-- The text with a backslash and a letter replaced by a character. -/
def expanded (letter replacement : Char) : List Char → List Char
  | '\\' :: c :: rest =>
      if c = letter then replacement :: expanded letter replacement rest
      else '\\' :: expanded letter replacement (c :: rest)
  | c :: rest => c :: expanded letter replacement rest
  | [] => []

/-- The value of a captured text: line breaks are expanded in double quotes only. -/
def valueOf (text : List Char) : List Char :=
  let trimmed := Blank.trim text
  let inner := unquoted trimmed
  if trimmed.head? = some '"' then expanded 'r' '\r' (expanded 'n' '\n' inner) else inner

/-- The settings of a text in their order. -/
def settings (text : String) : List (String × String) :=
  (setting.split (normalized text.toList)).filterMap fun piece =>
    match piece with
    | .plain _ => none
    | .found captures =>
        (captured captures 1).map fun key =>
          (String.ofList key, String.ofList (valueOf ((captured captures 2).getD [])))

/-- The path of the file in a home directory: `.env` unless another one is given, in which a `~` at
the beginning stands for the home directory. -/
def path (home given : String) : String :=
  match given.toList with
  | [] => ".env"
  | '~' :: rest => home ++ "/" ++ String.ofList rest
  | _ => given

/-- The environment that a text sets. -/
def ofText (text : String) : Environment :=
  ⟨(settings text).reverse⟩

/-- The environment that a file sets; one that cannot be read sets nothing. -/
def environment (content : Content) : Environment :=
  match content.text? with
  | some text => ofText text
  | none => ⟨[]⟩

end AccountRegistry.EnvironmentFile
