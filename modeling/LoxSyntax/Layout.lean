import LoxSyntax.Text.Blank

/-!
# Layout

Between two tokens there may be blanks and comments.  A comment starts with two slashes and
runs up to the end of its line; the line end itself is a blank that follows it.
-/

namespace LoxSyntax.Layout

def endsLine (character : Char) : Bool :=
  character = '\n' || character = '\r'

/-- The layout that a text begins with, where the text may begin inside a comment. -/
def run : (inComment : Bool) → List Char → List Char
  | _, [] => []
  | true, character :: rest => character :: run (!endsLine character) rest
  | false, '/' :: '/' :: rest => '/' :: '/' :: run true rest
  | false, character :: rest =>
      if Text.isBlank character then character :: run false rest else []

def leading (text : List Char) : List Char :=
  run false text

theorem run_isPrefix (inComment : Bool) (text : List Char) : run inComment text <+: text := by
  fun_induction run inComment text with
  | case1 => exact List.nil_prefix
  | case2 character rest ih => exact (List.cons_prefix_cons).2 ⟨rfl, ih⟩
  | case3 rest ih => simpa using ih
  | case4 character rest _ _ ih => exact (List.cons_prefix_cons).2 ⟨rfl, ih⟩
  | case5 => exact List.nil_prefix

end LoxSyntax.Layout
