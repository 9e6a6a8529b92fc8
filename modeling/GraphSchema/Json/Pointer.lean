import GraphSchema.Json.Basic

/-!
# JSON pointers

A pointer is the empty text, which names the whole value, or a sequence of tokens each behind a
slash.  In a token `~1` stands for a slash and `~0` for a tilde.  A token selects an entry of an
object by its key and an element of an array by its index, which is written without a sign and
without leading zeros.
-/

namespace GraphSchema.Json

/-- Replace each occurrence of the pair `first`, `second` by `replacement`, left to right. -/
def replacePair (first second replacement : Char) : List Char → List Char
  | a :: b :: rest =>
    if a = first ∧ b = second then replacement :: replacePair first second replacement rest
    else a :: replacePair first second replacement (b :: rest)
  | short => short

/-- The key that a token spells. -/
def tokenKey (token : List Char) : String :=
  String.ofList (replacePair '~' '0' '~' (replacePair '~' '1' '/' token))

/-- The index that a token spells. -/
def tokenIndex? (token : List Char) : Option Nat :=
  match token with
  | [] => none
  | ['0'] => some 0
  | '0' :: _ => none
  | digits =>
    if digits.all Char.isDigit then
      some (digits.foldl (fun n digit => 10 * n + (digit.toNat - 48)) 0)
    else none

/-- The texts between the slashes of a text. -/
def splitSlashes : List Char → List (List Char)
  | [] => [[]]
  | c :: rest =>
    match c, splitSlashes rest with
    | '/', pieces => [] :: pieces
    | c, piece :: pieces => (c :: piece) :: pieces
    | c, [] => [[c]]

/-- The part of a value that a token selects. -/
def child? (value : Json) (token : List Char) : Option Json :=
  match value with
  | object entries => Fields.get? entries (tokenKey token)
  | array elements => (tokenIndex? token).bind fun index => elements[index]?
  | _ => none

/-- The part of a value at a sequence of tokens. -/
def descend? : Json → List (List Char) → Option Json
  | value, [] => some value
  | value, token :: rest => (value.child? token).bind fun part => descend? part rest

/-- The part of a value at a pointer. -/
def pointer? (value : Json) (pointer : String) : Option Json :=
  match pointer.toList with
  | [] => some value
  | '/' :: tokens => descend? value (splitSlashes tokens)
  | _ => none

end GraphSchema.Json
