import Straightline.Token.Lexicon

/-!
# Class files

A body becomes a source file by standing as the entry point of a class. Java reads a literal with a
decimal point as a number of double precision, which cannot be stored in a `float`, so every such
literal gets the suffix `f`. Strings and characters stay as they are, whatever they hold.
-/

namespace Straightline.Java

open Pattern Lexicon

/-- A literal with a decimal point, as Java code holds it: the sign is not part of it. -/
def decimalLiteral : Pattern :=
  seq (many1 digits) (seq (char '.') (many1 digits))

/-- What stays as it is: strings, characters, and digits that do not start a decimal literal. -/
def verbatim : Pattern :=
  either string (either character (many1 digits))

/-- Puts the suffix behind each decimal literal outside strings and characters. -/
def suffixDecimals (cs : List Char) : List Char :=
  match cs with
  | [] => []
  | c :: rest =>
    match decimalLiteral.matchLength? (c :: rest) with
    | some (n + 1) => c :: rest.take n ++ 'f' :: suffixDecimals (rest.drop n)
    | _ =>
      match verbatim.matchLength? (c :: rest) with
      | some (n + 1) => c :: rest.take n ++ suffixDecimals (rest.drop n)
      | _ => c :: suffixDecimals rest
termination_by cs.length
decreasing_by all_goals simp only [List.length_cons, List.length_drop]; omega

/-- The source file with the given body as its entry point. -/
def classFile (body : String) : String :=
  "public class Main \x7b\n    public static void main(String[] args) " ++
    String.ofList (suffixDecimals body.toList) ++ "\n\x7d\n"

end Straightline.Java
