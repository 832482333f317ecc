import Mathlib.Tactic.Common
import ParallelFilter.Text.Unquoted

/-! Quoted text can be read back, whatever it says, and shows nothing but visible characters. The
reader is met with what was written for one character and any text behind it: it reads the
character, and goes on where the next begins. So no text can be taken for another, also if it looks
like one that was written. -/

namespace ParallelFilter.Text

/-! ### Digits -/

theorem hexValue?_digitChar {digit : Nat} (h : digit < 16) :
    hexValue? digit.digitChar = some digit := by
  revert digit
  decide

theorem digitChar_ne_brace {digit : Nat} (h : digit < 16) : digit.digitChar ≠ '\x7d' := by
  revert digit
  decide

theorem unquoteFrom_digit (value : Nat) {digit : Nat} (h : digit < 16) (rest : List Char) :
    unquoteFrom (.code value) (digit.digitChar :: rest) =
      unquoteFrom (.code (16 * value + digit)) rest := by
  rw [unquoteFrom, if_neg (digitChar_ne_brace h), hexValue?_digitChar h, Option.bind_some]

/-- The digits are read from the left, so the last one is added to what the others say. -/
theorem unquoteFrom_hexDigits (code : Nat) (rest : List Char) :
    unquoteFrom (.code 0) (hexDigits code ++ rest) = unquoteFrom (.code code) rest := by
  induction code using Nat.strongRecOn generalizing rest with
  | ind code ih =>
      by_cases hsmall : code < 16
      · rw [hexDigits, Nat.toDigits_of_lt_base hsmall, List.singleton_append,
          unquoteFrom_digit 0 hsmall, Nat.mul_zero, Nat.zero_add]
      · have hless : code / 16 < code := Nat.div_lt_self (by omega) (by decide)
        have hlast : code % 16 < 16 := Nat.mod_lt _ (by decide)
        have hdigits : hexDigits code = hexDigits (code / 16) ++ [(code % 16).digitChar] :=
          Nat.toDigits_of_base_le (by decide) (by omega)
        calc unquoteFrom (.code 0) (hexDigits code ++ rest)
            = unquoteFrom (.code 0) (hexDigits (code / 16) ++ (code % 16).digitChar :: rest) := by
              rw [hdigits, List.append_assoc, List.singleton_append]
          _ = unquoteFrom (.code (16 * (code / 16) + code % 16)) rest := by
              rw [ih _ hless, unquoteFrom_digit _ hlast]
          _ = unquoteFrom (.code code) rest := by
              rw [Nat.div_add_mod]

theorem ofCode?_toNat (c : Char) : ofCode? c.toNat = some c := by
  rw [ofCode?, if_pos (show c.toNat.isValidChar from c.valid), Char.ofNat_toNat]

/-! ### Reading back -/

theorem unquoteFrom_letter {letter meant : Char} (hletter : letter ≠ 'u')
    (h : unescaped? letter = some meant) (rest : List Char) :
    unquoteFrom .plain ('\x5c' :: letter :: rest) = (unquoteFrom .plain rest).map (meant :: ·) := by
  rw [unquoteFrom, if_neg (by decide), if_pos rfl, unquoteFrom, if_neg hletter, h, Option.bind_some]

theorem unquoteFrom_code (c : Char) (rest : List Char) :
    unquoteFrom .plain ('\x5c' :: 'u' :: '\x7b' :: (hexDigits c.toNat ++ '\x7d' :: rest)) =
      (unquoteFrom .plain rest).map (c :: ·) := by
  rw [unquoteFrom, if_neg (by decide), if_pos rfl, unquoteFrom, if_pos rfl, unquoteFrom, if_pos rfl,
    unquoteFrom_hexDigits, unquoteFrom, if_pos rfl, ofCode?_toNat, Option.bind_some]

/-- Whatever follows what is written for a character, the character is read and nothing else. -/
theorem unquoteFrom_escape (c : Char) (rest : List Char) :
    unquoteFrom .plain (escape c ++ rest) = (unquoteFrom .plain rest).map (c :: ·) := by
  unfold escape
  split_ifs with h h h h h h hvisible
  case pos | pos | pos | pos | pos | pos =>
    subst h
    exact unquoteFrom_letter (by decide) rfl rest
  case pos => rw [List.singleton_append, unquoteFrom, if_neg ‹¬c = '\x22'›, if_neg ‹¬c = '\x5c'›]
  case neg =>
    rw [List.append_assoc, List.append_assoc]
    exact unquoteFrom_code c rest

theorem unquoteFrom_flatMap_escape (cs : List Char) :
    unquoteFrom .plain (cs.flatMap escape ++ ['\x22']) = some cs := by
  induction cs with
  | nil => rfl
  | cons c cs ih => rw [List.flatMap_cons, List.append_assoc, unquoteFrom_escape, ih, Option.map_some]

theorem unquote?_quote (cs : List Char) : unquote? (quote cs) = some cs := by
  rw [quote, unquote?, if_pos rfl, unquoteFrom_flatMap_escape]

-- a control character, and a digit behind it that is none of its code point
example : quote ['\x1b', '7'] = ['\x22', '\x5c', 'u', '\x7b', '1', 'b', '\x7d', '7', '\x22'] := by
  decide

/-! ### What can be seen -/

/-- Whether a character is a control character. -/
def isControl (c : Char) : Bool :=
  c.toNat ≤ 0x1F || (0x7F ≤ c.toNat && c.toNat ≤ 0x9F)

theorem isVisible_of_ascii {c : Char} (h : 0x20 ≤ c.toNat ∧ c.toNat < 0x7F) : isVisible c := by
  rw [isVisible, if_pos h]

/-- Fixed texts are written in the printable characters of ASCII. -/
theorem isVisible_of_mem_ascii {cs : List Char} {c : Char} (h : c ∈ cs)
    (hascii : cs.all fun c => 0x20 ≤ c.toNat && c.toNat < 0x7F) : isVisible c :=
  isVisible_of_ascii (by simpa using List.all_eq_true.1 hascii c h)

theorem isVisible_digitChar {digit : Nat} (h : digit < 16) : isVisible digit.digitChar := by
  refine isVisible_of_ascii ?_
  revert digit
  decide

theorem isVisible_of_mem_toDigits {base number : Nat} {c : Char} (hbase : 1 < base ∧ base ≤ 16)
    (h : c ∈ Nat.toDigits base number) : isVisible c := by
  induction number using Nat.strongRecOn with
  | ind number ih =>
      by_cases hsmall : number < base
      · rw [Nat.toDigits_of_lt_base hsmall, List.mem_singleton] at h
        exact h ▸ isVisible_digitChar (Nat.lt_of_lt_of_le hsmall hbase.2)
      · rw [Nat.toDigits_of_base_le hbase.1 (by omega), List.mem_append, List.mem_singleton] at h
        rcases h with hfront | rfl
        · exact ih _ (Nat.div_lt_self (by omega) hbase.1) hfront
        · have hlast : number % base < base := Nat.mod_lt _ (by omega)
          exact isVisible_digitChar (Nat.lt_of_lt_of_le hlast hbase.2)

theorem isVisible_of_mem_escape {c shown : Char} (h : shown ∈ escape c) : isVisible shown := by
  unfold escape at h
  split_ifs at h with _ _ _ _ _ _ hvisible
  case pos | pos | pos | pos | pos | pos => exact isVisible_of_mem_ascii h rfl
  case pos => exact List.mem_singleton.1 h ▸ hvisible
  case neg =>
    rw [List.mem_append, List.mem_append] at h
    rcases h with (hopening | hdigit) | hbrace
    · exact isVisible_of_mem_ascii hopening rfl
    · exact isVisible_of_mem_toDigits (by decide) hdigit
    · exact isVisible_of_mem_ascii hbrace rfl

theorem isVisible_of_mem_quote {cs : List Char} {shown : Char} (h : shown ∈ quote cs) :
    isVisible shown := by
  rw [quote, List.mem_cons, List.mem_append, List.mem_flatMap, List.mem_singleton] at h
  rcases h with rfl | ⟨c, -, hinside⟩ | rfl
  · exact isVisible_of_ascii (by decide)
  · exact isVisible_of_mem_escape hinside
  · exact isVisible_of_ascii (by decide)

/-- The first two ranges without a printed form are the control characters, with the space behind
them. -/
theorem not_isControl_of_isVisible {c : Char} (h : isVisible c) : isControl c = false := by
  cases hcontrol : isControl c with
  | false => rfl
  | true =>
      have hcode : c.toNat ≤ 0x1F ∨ 0x7F ≤ c.toNat ∧ c.toNat ≤ 0x9F := by
        simpa [isControl] using hcontrol
      have hhidden : inRanges unprintableRanges c.toNat = true := by
        rw [inRanges, List.any_eq_true]
        rcases hcode with hlow | hhigh
        · exact ⟨(0x0000, 0x001F), .head _, by simpa using hlow⟩
        · exact ⟨(0x007F, 0x00A0), .tail _ (.head _), by simp; omega⟩
      rw [isVisible, if_neg (by omega), hhidden] at h
      cases h

end ParallelFilter.Text
