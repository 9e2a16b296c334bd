import Mathlib.Data.List.Basic
import Mathlib.Data.String.Basic

/-!
# JSON objects of texts, as ASCII

`json.dumps` writes every character outside the printable ASCII ones as an escape, in
two halves where one does not hold it. A reader of one character at a time takes such a
text apart again, so no two objects have one text.
-/

namespace Crisp.Lib.Json

/-- A lower-case hexadecimal digit. -/
def hexDigit (n : Nat) : Char :=
  if n < 10 then Char.ofNat (48 + n) else Char.ofNat (87 + n)

def hexValue (c : Char) : Nat := if c.toNat < 58 then c.toNat - 48 else c.toNat - 87

/-- `\uXXXX` -/
def unicodeEscape (n : Nat) : List Char :=
  ['\\', 'u', hexDigit (n / 4096 % 16), hexDigit (n / 256 % 16), hexDigit (n / 16 % 16),
    hexDigit (n % 16)]

/-- One character of a string, with `ensure_ascii`. -/
def escape (c : Char) : List Char :=
  if c = '"' then ['\\', '"']
  else if c = '\\' then ['\\', '\\']
  else if c = '\n' then ['\\', 'n']
  else if c = '\r' then ['\\', 'r']
  else if c = '\t' then ['\\', 't']
  else if c.toNat = 8 then ['\\', 'b']
  else if c.toNat = 12 then ['\\', 'f']
  else if 32 ≤ c.toNat ∧ c.toNat < 127 then [c]
  else if c.toNat < 0x10000 then unicodeEscape c.toNat
  else
    unicodeEscape (0xD800 + (c.toNat - 0x10000) / 0x400) ++
      unicodeEscape (0xDC00 + (c.toNat - 0x10000) % 0x400)

/-- A JSON string. -/
def quote (text : String) : List Char := '"' :: (text.toList.flatMap escape ++ ['"'])

/-- The members of an object, in their order. -/
def members : List (String × String) → List Char
  | [] => []
  | [item] => quote item.1 ++ ':' :: ' ' :: quote item.2
  | item :: items => quote item.1 ++ ':' :: ' ' :: (quote item.2 ++ ',' :: ' ' :: members items)

/-- `json.dumps(items)` for a dictionary with these items. -/
def dumps (items : List (String × String)) : String :=
  String.ofList ('\x7b' :: (members items ++ ['\x7d']))

/-! ## Reading one character -/

/-- The value of four hexadecimal digits. -/
def hexValue4 (a b c d : Char) : Nat :=
  4096 * hexValue a + 256 * hexValue b + 16 * hexValue c + hexValue d

/-- The first character of an escaped text and what follows it. -/
def unescape : List Char → Option (Char × List Char)
  | '\\' :: '"' :: rest => some ('"', rest)
  | '\\' :: '\\' :: rest => some ('\\', rest)
  | '\\' :: 'n' :: rest => some ('\n', rest)
  | '\\' :: 'r' :: rest => some ('\r', rest)
  | '\\' :: 't' :: rest => some ('\t', rest)
  | '\\' :: 'b' :: rest => some (Char.ofNat 8, rest)
  | '\\' :: 'f' :: rest => some (Char.ofNat 12, rest)
  | '\\' :: 'u' :: a :: b :: c :: d :: rest =>
      let high := hexValue4 a b c d
      if 0xD800 ≤ high ∧ high < 0xDC00 then
        match rest with
        | _ :: _ :: a :: b :: c :: d :: rest =>
            some (Char.ofNat (0x10000 + (high - 0xD800) * 0x400 + (hexValue4 a b c d - 0xDC00)),
              rest)
        | _ => none
      else some (Char.ofNat high, rest)
  | c :: rest => some (c, rest)
  | [] => none

theorem hexValue_hexDigit : ∀ n < 16, hexValue (hexDigit n) = n := by decide

theorem hexValue4_digits {n : Nat} (hn : n < 0x10000) :
    hexValue4 (hexDigit (n / 4096 % 16)) (hexDigit (n / 256 % 16)) (hexDigit (n / 16 % 16))
      (hexDigit (n % 16)) = n := by
  rw [hexValue4, hexValue_hexDigit _ (Nat.mod_lt _ (by omega)),
    hexValue_hexDigit _ (Nat.mod_lt _ (by omega)), hexValue_hexDigit _ (Nat.mod_lt _ (by omega)),
    hexValue_hexDigit _ (Nat.mod_lt _ (by omega))]
  omega

/-- No character is a surrogate. -/
theorem toNat_valid (c : Char) : c.toNat < 0xD800 ∨ 0xDFFF < c.toNat ∧ c.toNat < 0x110000 := by
  have hvalid := c.valid
  simpa [UInt32.isValidChar, Nat.isValidChar] using hvalid

theorem unescape_unicodeEscape (c : Char) (hwide : c.toNat < 0x10000) (rest : List Char) :
    unescape (unicodeEscape c.toNat ++ rest) = some (c, rest) := by
  have hvalid := toNat_valid c
  simp only [unicodeEscape, List.cons_append, List.nil_append, unescape]
  rw [hexValue4_digits hwide, if_neg (by omega), Char.ofNat_toNat]

theorem unescape_surrogates (c : Char) (hwide : ¬c.toNat < 0x10000) (rest : List Char) :
    unescape (unicodeEscape (0xD800 + (c.toNat - 0x10000) / 0x400) ++
      (unicodeEscape (0xDC00 + (c.toNat - 0x10000) % 0x400) ++ rest)) = some (c, rest) := by
  have hvalid := toNat_valid c
  have hhigh : 0xD800 + (c.toNat - 0x10000) / 0x400 < 0xDC00 := by omega
  have hlow : 0xDC00 + (c.toNat - 0x10000) % 0x400 < 0x10000 := by omega
  have hsum : 0x10000 + (0xD800 + (c.toNat - 0x10000) / 0x400 - 0xD800) * 0x400 +
      (0xDC00 + (c.toNat - 0x10000) % 0x400 - 0xDC00) = c.toNat := by omega
  simp only [unicodeEscape, List.cons_append, List.nil_append, unescape]
  rw [hexValue4_digits (by omega), hexValue4_digits hlow, if_pos ⟨by omega, hhigh⟩, hsum,
    Char.ofNat_toNat]

theorem unescape_escape (c : Char) (rest : List Char) :
    unescape (escape c ++ rest) = some (c, rest) := by
  rw [escape]
  by_cases hquote : c = '"'
  · rw [if_pos hquote, hquote]
    rfl
  rw [if_neg hquote]
  by_cases hslash : c = '\\'
  · rw [if_pos hslash, hslash]
    rfl
  rw [if_neg hslash]
  by_cases hn : c = '\n'
  · rw [if_pos hn, hn]
    rfl
  rw [if_neg hn]
  by_cases hr : c = '\r'
  · rw [if_pos hr, hr]
    rfl
  rw [if_neg hr]
  by_cases ht : c = '\t'
  · rw [if_pos ht, ht]
    rfl
  rw [if_neg ht]
  by_cases hb : c.toNat = 8
  · rw [if_pos hb, ← Char.ofNat_toNat c, hb]
    rfl
  rw [if_neg hb]
  by_cases hf : c.toNat = 12
  · rw [if_pos hf, ← Char.ofNat_toNat c, hf]
    rfl
  rw [if_neg hf]
  by_cases hplain : 32 ≤ c.toNat ∧ c.toNat < 127
  · rw [if_pos hplain, List.singleton_append, unescape]
    all_goals simp_all
  rw [if_neg hplain]
  by_cases hwide : c.toNat < 0x10000
  · rw [if_pos hwide, unescape_unicodeEscape c hwide]
  · rw [if_neg hwide, List.append_assoc, unescape_surrogates c hwide]

/-! ## Reading a string and an object -/

/-- Only a quotation mark ends a string. -/
theorem escape_head (c : Char) (rest more : List Char) : escape c ++ rest ≠ '"' :: more := by
  intro heq
  have hread := unescape_escape c rest
  rw [heq] at hread
  have hc : '"' = c ∧ more = rest := by simpa [unescape] using hread
  rw [← hc.1] at heq
  simp [escape] at heq

/-- The character that starts an escaped text is known. -/
theorem escape_append_inj {c c' : Char} {rest rest' : List Char}
    (heq : escape c ++ rest = escape c' ++ rest') : c = c' ∧ rest = rest' := by
  have hread := unescape_escape c rest
  rw [heq, unescape_escape c' rest'] at hread
  simpa [eq_comm] using hread

theorem escaped_inj : ∀ {text text' : List Char} {rest rest' : List Char},
    text.flatMap escape ++ '"' :: rest = text'.flatMap escape ++ '"' :: rest' →
      text = text' ∧ rest = rest'
  | [], [], _, _, heq => ⟨rfl, by simpa using heq⟩
  | [], c' :: text', rest, rest', heq => by
      rw [List.flatMap_cons, List.append_assoc] at heq
      exact absurd heq.symm (escape_head c' _ _)
  | c :: text, [], rest, rest', heq => by
      rw [List.flatMap_cons, List.append_assoc] at heq
      exact absurd heq (escape_head c _ _)
  | c :: text, c' :: text', rest, rest', heq => by
      rw [List.flatMap_cons, List.flatMap_cons, List.append_assoc, List.append_assoc] at heq
      obtain ⟨hc, htail⟩ := escape_append_inj heq
      obtain ⟨htext, hrest⟩ := escaped_inj htail
      exact ⟨by rw [hc, htext], hrest⟩

/-- A string ends where its closing mark is. -/
theorem quote_append_inj {text text' : String} {rest rest' : List Char}
    (heq : quote text ++ rest = quote text' ++ rest') : text = text' ∧ rest = rest' := by
  simp only [quote, List.cons_append, List.append_assoc, List.nil_append, List.cons.injEq,
    true_and] at heq
  obtain ⟨htext, hrest⟩ := escaped_inj heq
  exact ⟨String.toList_injective htext, hrest⟩

theorem members_ne_nil (item : String × String) (items : List (String × String)) :
    members (item :: items) ≠ [] := by
  cases items <;> simp [members, quote]

/-- A member of an object is its key and its value, and the rest follows. -/
theorem member_inj {item item' : String × String} {rest rest' : List Char}
    (heq : quote item.1 ++ ':' :: ' ' :: (quote item.2 ++ rest) =
      quote item'.1 ++ ':' :: ' ' :: (quote item'.2 ++ rest')) : item = item' ∧ rest = rest' := by
  obtain ⟨hkey, htail⟩ := quote_append_inj heq
  simp only [List.cons.injEq, true_and] at htail
  obtain ⟨hvalue, hrest⟩ := quote_append_inj htail
  exact ⟨Prod.ext hkey hvalue, hrest⟩

theorem members_cons (item : String × String) (items : List (String × String)) :
    members (item :: items) = quote item.1 ++ ':' :: ' ' :: (quote item.2 ++
      (if items = [] then [] else ',' :: ' ' :: members items)) := by
  cases items <;> simp [members]

theorem members_inj : ∀ {items items' : List (String × String)},
    members items = members items' → items = items'
  | [], [], _ => rfl
  | [], item' :: items', heq => absurd heq.symm (members_ne_nil item' items')
  | item :: items, [], heq => absurd heq (members_ne_nil item items)
  | item :: items, item' :: items', heq => by
      rw [members_cons, members_cons] at heq
      obtain ⟨hitem, htail⟩ := member_inj heq
      split at htail <;> split at htail
      · simp_all
      · simp at htail
      · simp at htail
      · simp only [List.cons.injEq, true_and] at htail
        rw [hitem, members_inj htail]

/-- Two objects with one text have the same members in the same order. -/
theorem dumps_injective : Function.Injective dumps := by
  intro items items' heq
  have hlist := String.ofList_injective heq
  simp only [List.cons.injEq, true_and] at hlist
  exact members_inj (List.append_cancel_right hlist)

end Crisp.Lib.Json
