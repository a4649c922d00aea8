import Mathlib.Data.List.Infix
import NetWorth.Json.Writer

/-! # Texts inside compact JSON

No escape of a character is the start of another one's, so a written text ends at its first bare quote and
determines what was written. Objects whose members are texts are determined by their written form as well, and
no such object has another one behind its first character. -/
namespace NetWorth.Json

/-- The characters that do not stand for themselves in a text. -/
def escaped : List Char := '"' :: '\\' :: (List.range 32).map Char.ofNat

theorem escapeChar_of_notMem {c : Char} (h : c ∉ escaped) : escapeChar false c = [c] := by
  simp only [escaped, List.mem_cons, List.mem_map, List.mem_range, not_or, not_exists, not_and] at h
  obtain ⟨hquote, hslash, hcontrol⟩ := h
  have hlarge : 32 ≤ c.toNat := by
    by_contra hsmall
    exact hcontrol c.toNat (by omega) (Char.ofNat_toNat c)
  have hne : ∀ d : Char, d.toNat < 32 → c ≠ d := by
    rintro d hd rfl
    omega
  simp [escapeChar, hquote, hslash, hne '\n' (by decide), hne '\r' (by decide), hne '\t' (by decide),
    show c.toNat ≠ 8 by omega, show c.toNat ≠ 12 by omega, show ¬ c.toNat < 32 by omega]

/-- The escape of a character that does not stand for itself starts with a backslash and has no brace. -/
theorem escapeChar_of_mem {c : Char} (h : c ∈ escaped) :
    (escapeChar false c).head? = some '\\' ∧ '\x7b' ∉ escapeChar false c := by
  have hall : escaped.all (fun c =>
      (escapeChar false c).head? = some '\\' ∧ '\x7b' ∉ escapeChar false c) = true := by
    decide +kernel
  exact of_decide_eq_true (List.all_eq_true.1 hall c h)

theorem eq_of_escapeChar_isPrefixOf {c d : Char} (hc : c ∈ escaped) (hd : d ∈ escaped)
    (h : (escapeChar false c).isPrefixOf (escapeChar false d) = true) : c = d := by
  have hall : escaped.all (fun c => escaped.all fun d =>
      (escapeChar false c).isPrefixOf (escapeChar false d) → c = d) = true := by
    decide +kernel
  exact of_decide_eq_true (List.all_eq_true.1 (List.all_eq_true.1 hall c hc) d hd) h

theorem escapeChar_ne_nil (c : Char) : escapeChar false c ≠ [] := by
  by_cases h : c ∈ escaped
  · intro hnil
    simpa [hnil] using (escapeChar_of_mem h).1
  · simp [escapeChar_of_notMem h]

/-- No escape of a character is the start of another one's. -/
theorem escapeChar_eq_of_prefixed {c d : Char} (h : escapeChar false c <+: escapeChar false d) : c = d := by
  have hhead : (escapeChar false d).head? = (escapeChar false c).head? := by
    obtain ⟨rest, hrest⟩ := h
    rw [← hrest, List.head?_append_of_ne_nil _ (escapeChar_ne_nil c)]
  have hslash : '\\' ∈ escaped := by simp [escaped]
  by_cases hc : c ∈ escaped <;> by_cases hd : d ∈ escaped
  · exact eq_of_escapeChar_isPrefixOf hc hd (List.isPrefixOf_iff_prefix.2 h)
  · rw [(escapeChar_of_mem hc).1, escapeChar_of_notMem hd] at hhead
    exact absurd (Option.some.inj hhead ▸ hslash) hd
  · rw [(escapeChar_of_mem hd).1, escapeChar_of_notMem hc] at hhead
    exact absurd (Option.some.inj hhead ▸ hslash) hc
  · rw [escapeChar_of_notMem hc, escapeChar_of_notMem hd] at h
    simpa using h

theorem escapeChar_append_inj {c d : Char} {cs ds : List Char}
    (h : escapeChar false c ++ cs = escapeChar false d ++ ds) : c = d ∧ cs = ds := by
  have hcd : c = d := by
    rcases List.append_eq_append_iff.1 h with ⟨rest, hd, -⟩ | ⟨rest, hc, -⟩
    · exact escapeChar_eq_of_prefixed ⟨rest, hd.symm⟩
    · exact (escapeChar_eq_of_prefixed ⟨rest, hc.symm⟩).symm
  subst hcd
  exact ⟨rfl, List.append_cancel_left h⟩

theorem escapeChar_append_ne_quote (c : Char) (cs ds : List Char) : escapeChar false c ++ cs ≠ '"' :: ds := by
  intro h
  by_cases hc : c ∈ escaped
  · have hhead := (escapeChar_of_mem hc).1
    have happend : (escapeChar false c ++ cs).head? = (escapeChar false c).head? :=
      List.head?_append_of_ne_nil _ (escapeChar_ne_nil c)
    rw [h, hhead] at happend
    exact absurd (Option.some.inj happend) (by decide)
  · rw [escapeChar_of_notMem hc] at h
    obtain rfl : c = '"' := (List.cons.inj h).1
    exact hc (by simp [escaped])

def body (cs : List Char) : List Char := cs.flatMap (escapeChar false)

theorem body_cons (c : Char) (cs : List Char) : body (c :: cs) = escapeChar false c ++ body cs := rfl

theorem body_append_quote_inj {cs ds rest rest' : List Char}
    (h : body cs ++ '"' :: rest = body ds ++ '"' :: rest') : cs = ds ∧ rest = rest' := by
  induction cs generalizing ds with
  | nil =>
    cases ds with
    | nil => exact ⟨rfl, (List.cons.inj h).2⟩
    | cons d ds =>
      rw [body_cons, List.append_assoc] at h
      exact absurd h.symm (escapeChar_append_ne_quote d _ _)
  | cons c cs ih =>
    cases ds with
    | nil =>
      rw [body_cons, List.append_assoc] at h
      exact absurd h (escapeChar_append_ne_quote c _ _)
    | cons d ds =>
      rw [body_cons, body_cons, List.append_assoc, List.append_assoc] at h
      obtain ⟨rfl, hbody⟩ := escapeChar_append_inj h
      obtain ⟨rfl, hrest⟩ := ih hbody
      exact ⟨rfl, hrest⟩

theorem writeText_append (s : String) (rest : List Char) :
    writeText .compact s ++ rest = '"' :: body s.toList ++ '"' :: rest := by
  simp [writeText, body, Layout.compact]

/-- A written text determines what was written and what follows it. -/
theorem writeText_append_inj {s t : String} {rest rest' : List Char}
    (h : writeText .compact s ++ rest = writeText .compact t ++ rest') : s = t ∧ rest = rest' := by
  rw [writeText_append, writeText_append] at h
  obtain ⟨hchars, hrest⟩ := body_append_quote_inj (List.cons.inj h).2
  exact ⟨String.toList_injective hchars, hrest⟩

def ofTexts (members : List (String × String)) : Json := .object (members.map fun m => (m.1, .text m.2))

def membersThen (members : List (String × String)) (rest : List Char) : List Char :=
  writeMembers .compact (members.map fun m => (m.1, .text m.2)) ++ '\x7d' :: rest

theorem write_ofTexts (members : List (String × String)) :
    write .compact (ofTexts members) = '\x7b' :: membersThen members [] := by
  simp only [ofTexts, write, membersThen, List.cons_append]

def afterMember (members : List (String × String)) (rest : List Char) : List Char :=
  if members = [] then '\x7d' :: rest else ',' :: membersThen members rest

theorem membersThen_cons (name value : String) (members : List (String × String)) (rest : List Char) :
    membersThen ((name, value) :: members) rest =
      writeText .compact name ++ ':' :: (writeText .compact value ++ afterMember members rest) := by
  cases members with
  | nil => simp [membersThen, afterMember, writeMembers, write, Layout.compact]
  | cons m members => simp [membersThen, afterMember, writeMembers, write, Layout.compact]

theorem membersThen_inj {members others : List (String × String)} {rest rest' : List Char}
    (h : membersThen members rest = membersThen others rest') : members = others ∧ rest = rest' := by
  induction members generalizing others with
  | nil =>
    cases others with
    | nil => exact ⟨rfl, (List.cons.inj h).2⟩
    | cons other others =>
      rw [membersThen_cons, writeText_append] at h
      exact absurd (List.cons.inj h).1 (by decide)
  | cons m members ih =>
    obtain ⟨name, value⟩ := m
    cases others with
    | nil =>
      rw [membersThen_cons, writeText_append] at h
      exact absurd (List.cons.inj h).1 (by decide)
    | cons other others =>
      obtain ⟨name', value'⟩ := other
      rw [membersThen_cons, membersThen_cons] at h
      obtain ⟨rfl, hvalue⟩ := writeText_append_inj h
      obtain ⟨rfl, hafter⟩ := writeText_append_inj (List.cons.inj hvalue).2
      unfold afterMember at hafter
      split_ifs at hafter with hmembers hothers hothers
      · rw [hmembers, hothers]
        exact ⟨rfl, (List.cons.inj hafter).2⟩
      · exact absurd (List.cons.inj hafter).1 (by decide)
      · exact absurd (List.cons.inj hafter).1 (by decide)
      · obtain ⟨rfl, hrest⟩ := ih (List.cons.inj hafter).2
        exact ⟨rfl, hrest⟩

/-- The start of an object whose first member has a name in `t`. -/
def opening : List Char := ['\x7b', '"', 't']

theorem opening_infix_cons {c : Char} (hc : c ≠ '\x7b') {cs : List Char} :
    opening <:+: c :: cs ↔ opening <:+: cs := by
  rw [List.infix_cons_iff, opening, List.cons_prefix_cons]
  simp [hc.symm]

theorem opening_infix_append {cs rest : List Char} (h : '\x7b' ∉ cs) :
    opening <:+: cs ++ rest ↔ opening <:+: rest := by
  induction cs with
  | nil => rfl
  | cons c cs ih =>
    rw [List.mem_cons, not_or] at h
    rw [List.cons_append, opening_infix_cons (Ne.symm h.1), ih h.2]

/-- A text goes on with a quote only where it ends. -/
theorem not_quote_prefix_body {cs rest : List Char} (hrest : rest.head? ≠ some 't') :
    ¬ ['"', 't'] <+: body cs ++ '"' :: rest := by
  rintro ⟨tail, htail⟩
  cases cs with
  | nil =>
    rw [← (List.cons.inj htail).2] at hrest
    exact hrest rfl
  | cons c cs =>
    rw [body_cons, List.append_assoc] at htail
    exact escapeChar_append_ne_quote c _ _ htail.symm

/-- No object opens inside a text: a brace there is followed by the closing quote at most. -/
theorem opening_infix_body {cs rest : List Char} (hrest : rest.head? ≠ some 't') :
    opening <:+: body cs ++ '"' :: rest ↔ opening <:+: rest := by
  induction cs with
  | nil => exact opening_infix_cons (by decide)
  | cons c cs ih =>
    rw [body_cons, List.append_assoc]
    by_cases hc : c ∈ escaped
    · rw [opening_infix_append (escapeChar_of_mem hc).2, ih]
    · rw [escapeChar_of_notMem hc, List.singleton_append]
      by_cases hbrace : c = '\x7b'
      · rw [List.infix_cons_iff, ih, opening, List.cons_prefix_cons]
        simp [not_quote_prefix_body hrest]
      · rw [opening_infix_cons hbrace, ih]

theorem opening_infix_writeText {s : String} {rest : List Char} (hrest : rest.head? ≠ some 't') :
    opening <:+: writeText .compact s ++ rest ↔ opening <:+: rest := by
  rw [writeText_append, List.cons_append, opening_infix_cons (by decide), opening_infix_body hrest]

/-- Behind the opening brace of an object with texts for its members no object opens. -/
theorem not_opening_infix_membersThen (members : List (String × String)) :
    ¬ opening <:+: membersThen members [] := by
  induction members with
  | nil => decide
  | cons m members ih =>
    obtain ⟨name, value⟩ := m
    have hafter : (afterMember members []).head? ≠ some 't' ∧ ¬ opening <:+: afterMember members [] := by
      unfold afterMember
      split
      · decide
      · exact ⟨by simp, fun h => ih ((opening_infix_cons (by decide)).1 h)⟩
    rw [membersThen_cons, opening_infix_writeText (by simp), opening_infix_cons (by decide),
      opening_infix_writeText hafter.1]
    exact hafter.2

end NetWorth.Json
