import NetWorth.Text.Spans

/-! # Blanks and trimming

Blanks are the white space and the information separators of Unicode. Trimming drops them from both
ends of a text and keeps those inside. -/
namespace NetWorth.Text

def blankSpans : Spans :=
  [(9, 13), (28, 32), (133, 133), (160, 160), (5760, 5760), (8192, 8202), (8232, 8233),
   (8239, 8239), (8287, 8287), (12288, 12288)]

def isBlank (c : Char) : Bool := blankSpans.contains c.toNat

/-- A blank that is white space; the information separators are not. -/
def isWhite (c : Char) : Bool := isBlank c && !(28 ≤ c.toNat && c.toNat ≤ 31)

/-- The characters without the blanks at both ends. -/
def trimChars (cs : List Char) : List Char :=
  ((cs.dropWhile isBlank).reverse.dropWhile isBlank).reverse

def trim (s : String) : String := String.ofList (trimChars s.toList)

@[simp] theorem trimChars_nil : trimChars [] = [] := rfl

/-- Trimming takes characters away and leaves the others as they are. -/
theorem trimChars_sublist (cs : List Char) : (trimChars cs).Sublist cs := by
  have hback : (trimChars cs).Sublist (cs.dropWhile isBlank) := by
    rw [trimChars, ← List.reverse_sublist, List.reverse_reverse]
    exact List.dropWhile_sublist _
  exact hback.trans (List.dropWhile_sublist _)

@[simp] theorem toList_trim (s : String) : (trim s).toList = trimChars s.toList := by
  simp [trim]

end NetWorth.Text
