import DocGraph.Json
import DocGraph.Proofs.Text.Half
import Mathlib.Data.List.Forall2
import Mathlib.Data.List.TakeDrop
import Mathlib.Tactic.Common

/-!
# What JSON text tells

JSON text on one line tells the tree that it was made of, and each part of it tells where it ends: a text by
the quote behind it, an array or an object by the bracket that closes it, and a number by the next character,
which is no digit. So if two trees begin one text, they are equal, and so is what comes after them.

This is true of trees without floating-point numbers whose texts are made of whole characters. Two halves in
a row are written as one character is.
-/

namespace DocGraph

namespace Text

/-- A text is made of whole characters: it is that of a string. -/
def IsWhole (t : String) : Prop := ∃ s, ofString s = t

end Text

namespace Json

variable {c d : Char} {r s : List Char} {m n : Nat}

/-! ### Escapes -/

lemma hexDigit_eq (n : Nat) : hexDigit n = (n % 16).digitChar := by
  rw [hexDigit, Nat.toDigits_of_lt_base (Nat.mod_lt n (by decide)), List.headD_cons]

lemma hexDigit_inj (h : hexDigit m = hexDigit n) : m % 16 = n % 16 := by
  have hdigits : ∀ a < 16, ∀ b < 16, Nat.digitChar a = Nat.digitChar b → a = b := by decide
  rw [hexDigit_eq, hexDigit_eq] at h
  exact hdigits _ (Nat.mod_lt m (by decide)) _ (Nat.mod_lt n (by decide)) h

/-- The escape of a unit tells the unit and where it ends. -/
lemma escapeUnit_append_inj (hm : m < 0x10000) (hn : n < 0x10000)
    (h : escapeUnit m ++ r = escapeUnit n ++ s) : m = n ∧ r = s := by
  obtain ⟨hunit, hrest⟩ := List.append_inj h rfl
  simp only [escapeUnit, List.cons.injEq, and_true, true_and] at hunit
  obtain ⟨h₁, h₂, h₃, h₄⟩ := hunit
  have h₁ := hexDigit_inj h₁
  have h₂ := hexDigit_inj h₂
  have h₃ := hexDigit_inj h₃
  have h₄ := hexDigit_inj h₄
  exact ⟨by omega, hrest⟩

/-- The characters with an escape of one letter, and the letters. -/
def shortEscapes : List (Char × Char) :=
  [('"', '"'), ('\\', '\\'), ('\n', 'n'), ('\r', 'r'), ('\t', 't'), ('\x08', 'b'), ('\x0c', 'f')]

lemma eq_of_mem_shortEscapes {e : Char} (hc : (c, e) ∈ shortEscapes) (hd : (d, e) ∈ shortEscapes) :
    c = d := by
  have hletters : ∀ p ∈ shortEscapes, ∀ q ∈ shortEscapes, p.2 = q.2 → p.1 = q.1 := by decide
  exact hletters _ hc _ hd rfl

lemma ne_u_of_mem_shortEscapes {e : Char} (h : (c, e) ∈ shortEscapes) : e ≠ 'u' := by
  have hletters : ∀ p ∈ shortEscapes, p.2 ≠ 'u' := by decide
  exact hletters _ h

/-- How a whole character is written inside a text. -/
inductive Writes (c : Char) : List Char → Prop
  | plain (hescape : c ≠ '\\') (hquote : c ≠ '"') : Writes c [c]
  | short {e : Char} (h : (c, e) ∈ shortEscapes) : Writes c ['\\', e]
  | unit (h : c.toNat < 0x10000) : Writes c (escapeUnit c.toNat)
  | pair (h : 0x10000 ≤ c.toNat) :
    Writes c (escapeUnit (0xD800 + (c.toNat - 0x10000) / 0x400) ++
      escapeUnit (0xDC00 + (c.toNat - 0x10000) % 0x400))

/-- The way a character is written tells the character and where it ends. -/
lemma Writes.append_inj {xs ys : List Char} (hx : Writes c xs) (hy : Writes d ys)
    (h : xs ++ r = ys ++ s) : c = d ∧ r = s := by
  have hvalid := Text.toNat_lt_or_lt c
  have hvalid' := Text.toNat_lt_or_lt d
  cases hx with
  | plain hescape hquote =>
    cases hy with
    | plain => simpa using h
    | _ => simp [escapeUnit, hescape] at h
  | short he =>
    have hu := ne_u_of_mem_shortEscapes he
    cases hy with
    | plain hescape _ => simp [hescape.symm] at h
    | short he' =>
      simp only [List.cons_append, List.nil_append, List.cons.injEq, true_and] at h
      obtain ⟨rfl, hrest⟩ := h
      exact ⟨eq_of_mem_shortEscapes he he', hrest⟩
    | _ => simp [escapeUnit, hu] at h
  | unit hlt =>
    cases hy with
    | plain hescape _ => simp [escapeUnit, hescape.symm] at h
    | short he => simp [escapeUnit, (ne_u_of_mem_shortEscapes he).symm] at h
    | unit hlt' =>
      obtain ⟨hnat, hrest⟩ := escapeUnit_append_inj hlt hlt' h
      exact ⟨Char.toNat_inj.1 hnat, hrest⟩
    | pair hle =>
      -- the first unit of a pair is that of a half
      rw [List.append_assoc] at h
      have hnat := (escapeUnit_append_inj hlt (by omega) h).1
      omega
  | pair hle =>
    rw [List.append_assoc] at h
    cases hy with
    | plain hescape _ => simp [escapeUnit, hescape.symm] at h
    | short he => simp [escapeUnit, (ne_u_of_mem_shortEscapes he).symm] at h
    | unit hlt =>
      have hnat := (escapeUnit_append_inj (by omega) hlt h).1
      omega
    | pair hle' =>
      rw [List.append_assoc] at h
      obtain ⟨hfirst, h⟩ := escapeUnit_append_inj (by omega) (by omega) h
      obtain ⟨hsecond, hrest⟩ := escapeUnit_append_inj (by omega) (by omega) h
      exact ⟨Char.toNat_inj.1 (by omega), hrest⟩

/-- The text of some things with commas between them. -/
def row {α : Type} (write : α → List Char) (xs : List α) : List Char := [',', ' '].intercalate (xs.map write)

section Row

variable {α : Type} {write : α → List Char} {sort : α → Prop} {closing : Char} {x y : α} {xs ys : List α}

end Row

/-! ### Trees -/

/-- The first character of a tree; all that a number begins with counts as one. -/
def opening : Json → Char
  | .null => 'n'
  | .bool b => if b then 't' else 'f'
  | .int _ | .float _ => '-'
  | .text _ => '"'
  | .array _ => '['
  | .object _ => '\x7b'

variable {j k : Json}

end Json

end DocGraph
