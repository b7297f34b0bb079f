import AccountRegistry.Text.Blank

/-!
# Text patterns

Small backtracking patterns over characters.  A match tries the alternatives of a pattern from
left to right and takes the first that lets all that follows match too; `many` tries one more
repetition first and `few` tries none first.  Matching recurses on the pattern and on the length
of the text, so every search ends.
-/

namespace AccountRegistry

/-- A place in a text: how many characters precede it, the one just before, and those after. -/
structure Cursor where
  position : Nat
  previous : Option Char
  after : List Char

/-- The beginning of a text. -/
def Cursor.start (text : List Char) : Cursor :=
  ⟨0, none, text⟩

/-- The place after a character `c`, with `rest` still to read. -/
def Cursor.next (cursor : Cursor) (c : Char) (rest : List Char) : Cursor :=
  ⟨cursor.position + 1, some c, rest⟩

/-- The text between two places. -/
def Cursor.between (first last : Cursor) : List Char :=
  first.after.take (last.position - first.position)

/-- What the capturing parts of a pattern matched, the latest first. -/
abbrev Captures := List (Nat × List Char)

inductive Pattern where
  | empty
  | one (accepts : Char → Bool)
  | seq (first second : Pattern)
  | alt (first second : Pattern)
  | many (body : Pattern)
  | few (body : Pattern)
  | capture (slot : Nat) (body : Pattern)
  | lineStart
  | lineEnd

namespace Pattern

/-- A given character. -/
def char (c : Char) : Pattern :=
  .one (· == c)

/-- A given text. -/
def word (text : String) : Pattern :=
  text.toList.foldr (fun c rest => .seq (.char c) rest) .empty

/-- Patterns one after the other. -/
def inOrder (parts : List Pattern) : Pattern :=
  parts.foldr .seq .empty

/-- The pattern once if it can be, else not at all. -/
def optional (body : Pattern) : Pattern :=
  .alt body .empty

/-- The pattern once and then as often as it can be. -/
def atLeastOnce (body : Pattern) : Pattern :=
  .seq body (.many body)

/-- Repeat a step while it moves on, preferring more repetitions. -/
def repeatMany {α : Type} (step : Cursor → Captures → (Cursor → Captures → Option α) → Option α)
    (done : Cursor → Captures → Option α) : Nat → Cursor → Captures → Option α
  | 0, cursor, found => done cursor found
  | fuel + 1, cursor, found =>
      (step cursor found fun next found' =>
        if cursor.position < next.position then repeatMany step done fuel next found' else none)
      <|> done cursor found

/-- Repeat a step while it moves on, preferring fewer repetitions. -/
def repeatFew {α : Type} (step : Cursor → Captures → (Cursor → Captures → Option α) → Option α)
    (done : Cursor → Captures → Option α) : Nat → Cursor → Captures → Option α
  | 0, cursor, found => done cursor found
  | fuel + 1, cursor, found =>
      done cursor found <|>
      (step cursor found fun next found' =>
        if cursor.position < next.position then repeatFew step done fuel next found' else none)

/-- Match a pattern at a place and go on with `done`; a failure there makes the pattern try its
next way to match. -/
def matchThen {α : Type} :
    Pattern → Cursor → Captures → (Cursor → Captures → Option α) → Option α
  | .empty, cursor, found, done => done cursor found
  | .one accepts, cursor, found, done =>
      match cursor.after with
      | [] => none
      | c :: rest => if accepts c then done (cursor.next c rest) found else none
  | .seq first second, cursor, found, done =>
      matchThen first cursor found fun next found' => matchThen second next found' done
  | .alt first second, cursor, found, done =>
      matchThen first cursor found done <|> matchThen second cursor found done
  | .many body, cursor, found, done =>
      repeatMany (matchThen body) done cursor.after.length cursor found
  | .few body, cursor, found, done =>
      repeatFew (matchThen body) done cursor.after.length cursor found
  | .capture slot body, cursor, found, done =>
      matchThen body cursor found fun next found' =>
        done next ((slot, cursor.between next) :: found')
  | .lineStart, cursor, found, done =>
      if cursor.previous.all Blank.isLineEnd then done cursor found else none
  | .lineEnd, cursor, found, done =>
      if cursor.after.head?.all Blank.isLineEnd then done cursor found else none

/-- The place where the pattern's match from a given place ends, and what it captured. -/
def matchAt (pattern : Pattern) (cursor : Cursor) : Option (Cursor × Captures) :=
  pattern.matchThen cursor [] fun next found => some (next, found)

/-- A part of a searched text: a character outside every match, or a match. -/
inductive Piece where
  | plain (c : Char)
  | found (captures : Captures)

/-- Cut a text into the leftmost matches that follow one another and the characters between. -/
def pieces (pattern : Pattern) : Nat → Cursor → List Piece
  | 0, cursor => cursor.after.map .plain
  | fuel + 1, cursor =>
      match cursor.after with
      | [] => []
      | c :: rest =>
          match pattern.matchAt cursor with
          | some (next, captures) =>
              if cursor.position < next.position then
                .found captures :: pieces pattern fuel next
              else .plain c :: pieces pattern fuel (cursor.next c rest)
          | none => .plain c :: pieces pattern fuel (cursor.next c rest)

/-- The pieces of a whole text. -/
def split (pattern : Pattern) (text : List Char) : List Piece :=
  pattern.pieces text.length (Cursor.start text)

/-- What a slot captured last. -/
def captured (captures : Captures) (slot : Nat) : Option (List Char) :=
  captures.lookup slot

end Pattern

end AccountRegistry
