import Bracketdown.Json.Numeral

/-!
# Skipping a JSON value

A value under a key that nobody asked for is read past. It must be spelled right, but its numbers
may be of any size, its surrogates need no partner, and it may be nested to any depth.
-/

namespace Bracketdown.Json

mutual

/-- The input behind the value that starts here, blanks aside. Each step takes a character or opens
a bracket already taken, so twice the length of the input is fuel enough. -/
def skipValueWith : Nat → Input → Except Fault Input
  | 0, _ => .error .expectedValue
  | fuel + 1, input =>
    match skipBlanks input with
    | [] => .error (.ended .value)
    | some 'n' :: rest => readWord ['u', 'l', 'l'] rest
    | some 't' :: rest => readWord ['r', 'u', 'e'] rest
    | some 'f' :: rest => readWord ['a', 'l', 's', 'e'] rest
    | some '-' :: rest => skipNumeral rest
    | some '"' :: rest => skipString rest
    | some '[' :: rest =>
      match skipBlanks rest with
      | [] => .error (.ended .list)
      | some ']' :: rest => .ok rest
      | rest => skipElementsWith fuel rest
    | some '\x7b' :: rest =>
      match skipBlanks rest with
      | [] => .error (.ended .object)
      | some '\x7d' :: rest => .ok rest
      | rest => skipMembersWith fuel rest
    | c :: rest => if (digit? c).isSome then skipNumeral (c :: rest) else .error .expectedValue

/-- The input behind the elements of an array from one of them on, and its closing bracket. -/
def skipElementsWith : Nat → Input → Except Fault Input
  | 0, _ => .error .expectedValue
  | fuel + 1, input => do
    match skipBlanks (← skipValueWith fuel input) with
    | [] => throw (.ended .list)
    | some ']' :: rest => return rest
    | some ',' :: rest => skipElementsWith fuel rest
    | _ => throw .expectedCommaOrBracket

/-- The input behind the members of an object from one of them on, and its closing brace. -/
def skipMembersWith : Nat → Input → Except Fault Input
  | 0, _ => .error .expectedValue
  | fuel + 1, input => do
    match skipBlanks input with
    | [] => throw (.ended .object)
    | some '"' :: rest =>
      match skipBlanks (← skipString rest) with
      | [] => throw (.ended .object)
      | some ':' :: rest =>
        match skipBlanks (← skipValueWith fuel rest) with
        | [] => throw (.ended .object)
        | some '\x7d' :: rest => return rest
        | some ',' :: rest => skipMembersWith fuel rest
        | _ => throw .expectedCommaOrBrace
      | _ => throw .expectedColon
    | _ => throw .keyNotString

end

/-- The input behind the value that starts here. -/
def skipValue (input : Input) : Except Fault Input := skipValueWith (2 * input.length + 2) input

end Bracketdown.Json
