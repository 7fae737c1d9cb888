/-!
# Lines

The lines of a text. A newline ends a line and is no part of it, nor is a carriage return right
before it. A text that ends with a newline has no empty line behind it, and a carriage return at the
very end of a text stays.
-/

namespace Quill

/-- A line without the carriage return at its end. -/
def dropReturn (line : List Char) : List Char :=
  if line.getLast? = some '\r' then line.dropLast else line

/-- The lines of a text. -/
def textLines (cs : List Char) : List (List Char) :=
  let line := cs.takeWhile (· ≠ '\n')
  match h : cs.dropWhile (· ≠ '\n') with
  | [] => if line = [] then [] else [line]
  | _ :: rest =>
    have : rest.length < cs.length := by
      have := congrArg List.length h
      have := (List.dropWhile_sublist (· ≠ '\n') (l := cs)).length_le
      simp only [List.length_cons] at *
      omega
    dropReturn line :: textLines rest
termination_by cs.length

/-- The line with the given number, counted from one. A place past the last line is on an empty one,
and so is nothing but the first line before it. -/
def lineAt (cs : List Char) (line : Nat) : List Char :=
  (textLines cs)[line - 1]?.getD []

end Quill
