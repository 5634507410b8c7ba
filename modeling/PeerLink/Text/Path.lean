/-!
# File paths

The directory part of a path. Parts are divided by slashes; empty parts and parts that are a single
dot say nothing, except for a slash or a dot at the front, which anchors the path.
-/

set_option autoImplicit false

namespace PeerLink.Path

/-- The number of characters that anchor a path: a leading slash, or a leading dot that is a part of
its own. -/
def anchor : List Char → Nat
  | '/' :: _ => 1
  | ['.'] => 1
  | '.' :: '/' :: _ => 1
  | _ => 0

/-- A reversed path without the parts at its end that say nothing. -/
def trimEnd : List Char → List Char
  | '/' :: cs => trimEnd cs
  | ['.'] => []
  | '.' :: '/' :: cs => trimEnd cs
  | cs => cs

/-- The path without its last part. The root and the empty path have none; a single dot has the
empty path. -/
def directory? (path : List Char) : Option (List Char) :=
  let front := path.take (anchor path)
  match trimEnd (path.drop (anchor path)).reverse with
  | [] => if front = ['.'] then some [] else none
  | c :: cs =>
      let parent := ((c :: cs).dropWhile (· ≠ '/')).drop 1
      some (front ++ (trimEnd parent).reverse)

example : directory? "/dev/null/x".toList = some "/dev/null".toList := by decide
example : directory? "./a//b/.".toList = some "./a".toList := by decide
example : directory? "/x".toList = some "/".toList := by decide
example : directory? "x".toList = some [] := by decide

end PeerLink.Path
