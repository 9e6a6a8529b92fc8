/-!
# Patterns for names

A pattern is a text in which `*` stands for any characters, `?` for one character, and a list
between brackets for one of its characters or, after `!`, for any other one.  Two stars that
make up a whole part of a path stand for directories at any depth.
-/

namespace GraphSchema.Glob

/-- An item of a bracketed list. -/
inductive Item where
  | single (c : Char)
  | range (low high : Char)
  deriving DecidableEq

/-- A part of a pattern. -/
inductive Token where
  | char (c : Char)
  | anyChar
  | anySequence
  /-- Directories at any depth. -/
  | anyDepth
  | within (items : List Item)
  | except (items : List Item)
  deriving DecidableEq

/-- A text that is no pattern, with the place of the fault. -/
inductive PatternFault where
  | stars (place : Nat)
  | partialDepth (place : Nat)
  | range (place : Nat)
  deriving DecidableEq

/-- The wording of a fault. -/
def PatternFault.message (fault : PatternFault) : String :=
  let (place, text) : Nat × String :=
    match fault with
    | .stars place => (place, "wildcards are either regular `*` or recursive `**`")
    | .partialDepth place => (place, "recursive wildcards must form a single path component")
    | .range place => (place, "invalid range pattern")
  "Pattern syntax error near position " ++ toString place ++ ": " ++ text

/-- The items that stand between brackets. -/
def itemsOf : List Char → List Item
  | low :: '-' :: high :: rest => .range low high :: itemsOf rest
  | c :: rest => .single c :: itemsOf rest
  | [] => []

/-- The characters up to a closing bracket that is not the first of them, and those after it. -/
def bracketed (chars : List Char) : Option (List Char × List Char) :=
  match chars with
  | [] => none
  | first :: rest =>
    match rest.dropWhile (· != ']') with
    | [] => none
    | _ :: behind => some (first :: rest.takeWhile (· != ']'), behind)

/-- A bracketed list whose opening bracket has been read, and what follows. -/
def bracketToken (chars : List Char) : Option (Token × List Char) :=
  match chars with
  | '!' :: rest => (bracketed rest).map fun (inner, behind) => (.except (itemsOf inner), behind)
  | _ => (bracketed chars).map fun (inner, behind) => (.within (itemsOf inner), behind)

/-- The tokens of a pattern; `place` is the place of the first character and `before` the
character in front of it.  Every step reads at least one character. -/
def tokensFrom : Nat → Nat → Option Char → List Char → Except PatternFault (List Token)
  | 0, _, _, _ => .ok []
  | _ + 1, _, _, [] => .ok []
  | steps + 1, place, before, c :: rest =>
    match c with
    | '?' => do return .anyChar :: (← tokensFrom steps (place + 1) (some c) rest)
    | '*' =>
      let stars := 1 + (rest.takeWhile (· == '*')).length
      let behind := rest.dropWhile (· == '*')
      if 2 < stars then .error (.stars (place + 2))
      else if stars = 1 then do
        return .anySequence :: (← tokensFrom steps (place + 1) (some c) behind)
      else if before.all (· == '/') then
        match behind with
        | [] => .ok [.anyDepth]
        | '/' :: behind => do
          return .anyDepth :: (← tokensFrom steps (place + 3) (some '/') behind)
        | _ => .error (.partialDepth (place + 2))
      else .error (.partialDepth (place - 1))
    | '[' =>
      match bracketToken rest with
      | none => .error (.range place)
      | some (token, behind) => do
        let used := rest.length - behind.length
        return token :: (← tokensFrom steps (place + 1 + used) (some ']') behind)
    | c => do return .char c :: (← tokensFrom steps (place + 1) (some c) rest)

/-- The tokens of a pattern. -/
def tokens (pattern : List Char) : Except PatternFault (List Token) :=
  tokensFrom pattern.length 0 none pattern

/-- The character is one of the items. -/
def Item.accepts (c : Char) : Item → Bool
  | single only => c == only
  | range low high => low ≤ c && c ≤ high

/-- A token stands for one character, and this is one that it stands for. -/
def Token.accepts (c : Char) : Token → Bool
  | char only => c == only
  | anyChar => true
  | within items => items.any (Item.accepts c)
  | except items => !items.any (Item.accepts c)
  | anySequence | anyDepth => false

/-- How the comparison of a name with a pattern ends. -/
inductive Verdict where
  | agrees
  /-- The name has a character that the pattern does not have in its place. -/
  | differs
  /-- The name ends before the pattern does. -/
  | tooShort
  deriving DecidableEq

/-- Compare a name and its ends by `tail`, as long as they differ.  When one of them is too
short, so are all the ends behind it. -/
def onSomeEnd (tail : List Char → Verdict) : List Char → Verdict
  | [] => tail []
  | c :: rest =>
    match tail (c :: rest) with
    | .differs => onSomeEnd tail rest
    | verdict => verdict

/-- Compare a name with a pattern.  From a star on the verdict is never that they differ: the
last end of the name is empty, which agrees or is too short.  So what stands before a star is
not tried anew once the star has been reached. -/
def verdict : List Token → List Char → Verdict
  | [], [] => .agrees
  | [], _ :: _ => .differs
  | .anySequence :: rest, name => onSomeEnd (verdict rest) name
  | .anyDepth :: rest, name => onSomeEnd (verdict rest) name
  | _ :: _, [] => .tooShort
  | token :: rest, c :: name => if token.accepts c then verdict rest name else .differs

/-- The name has the form of the pattern. -/
def accepts (tokens : List Token) (name : List Char) : Bool := verdict tokens name == .agrees

/-- Each of several stars may stand for no characters. -/
example :
    accepts [.char 'a', .anySequence, .char 'b', .anySequence, .char 'c'] ['a', 'b', 'b', 'c'] := by
  decide

/-- The text that a pattern without wildcards stands for. -/
def literal? : List Token → Option (List Char)
  | [] => some []
  | .char c :: rest => (literal? rest).map (c :: ·)
  | _ => none

end GraphSchema.Glob
