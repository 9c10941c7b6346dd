import ContainerPorts.Text.Utf8
/-!
# Base64

The standard alphabet with mandatory padding. Decoding accepts exactly what
encoding produces: no white space, no missing padding, no stray low bits.
-/
namespace ContainerPorts.Base64

def digit (n : Nat) : Char :=
  if n < 26 then Char.ofNat (65 + n)
  else if n < 52 then Char.ofNat (71 + n)
  else if n < 62 then Char.ofNat (n - 4)
  else if n = 62 then '+'
  else '/'

def value? (c : Char) : Option Nat :=
  if 'A' ≤ c ∧ c ≤ 'Z' then some (c.toNat - 65)
  else if 'a' ≤ c ∧ c ≤ 'z' then some (c.toNat - 71)
  else if '0' ≤ c ∧ c ≤ '9' then some (c.toNat + 4)
  else if c = '+' then some 62
  else if c = '/' then some 63
  else none

def encode : Bytes → List Char
  | [] => []
  | [a] => [digit (a.toNat / 4), digit (a.toNat % 4 * 16), '=', '=']
  | [a, b] =>
    [digit (a.toNat / 4), digit (a.toNat % 4 * 16 + b.toNat / 16), digit (b.toNat % 16 * 4), '=']
  | a :: b :: c :: rest =>
    digit (a.toNat / 4) :: digit (a.toNat % 4 * 16 + b.toNat / 16) ::
      digit (b.toNat % 16 * 4 + c.toNat / 64) :: digit (c.toNat % 64) :: encode rest

def decode? : List Char → Option Bytes
  | [] => some []
  | w :: x :: y :: z :: rest => do
    let m ← value? w
    let n ← value? x
    let a := UInt8.ofNat (m * 4 + n / 16)
    if y = '=' then
      if z = '=' ∧ rest = [] ∧ n % 16 = 0 then some [a] else none
    else
      let p ← value? y
      let b := UInt8.ofNat (n % 16 * 16 + p / 4)
      if z = '=' then
        if rest = [] ∧ p % 4 = 0 then some [a, b] else none
      else
        let q ← value? z
        return a :: b :: UInt8.ofNat (p % 4 * 64 + q) :: (← decode? rest)
  | _ => none

theorem value?_digit : ∀ n < 64, value? (digit n) = some n := by decide

theorem digit_ne_pad : ∀ n < 64, digit n ≠ '=' := by decide

theorem decode?_encode (b : Bytes) : decode? (encode b) = some b := by
  fun_induction encode b with
  | case1 => rfl
  | case2 a =>
    have := a.toNat_lt
    simp only [decode?, value?_digit (a.toNat / 4) (by omega),
      value?_digit (a.toNat % 4 * 16) (by omega), Option.bind_eq_bind, Option.bind_some,
      if_true, true_and]
    rw [if_pos (by omega),
      show a.toNat / 4 * 4 + a.toNat % 4 * 16 / 16 = a.toNat by omega, UInt8.ofNat_toNat]
  | case3 a b =>
    have := a.toNat_lt
    have := b.toNat_lt
    simp only [decode?, value?_digit (a.toNat / 4) (by omega),
      value?_digit (a.toNat % 4 * 16 + b.toNat / 16) (by omega),
      value?_digit (b.toNat % 16 * 4) (by omega),
      digit_ne_pad (b.toNat % 16 * 4) (by omega), Option.bind_eq_bind, Option.bind_some,
      if_false, if_true, true_and]
    rw [if_pos (by omega),
      show a.toNat / 4 * 4 + (a.toNat % 4 * 16 + b.toNat / 16) / 16 = a.toNat by omega,
      show (a.toNat % 4 * 16 + b.toNat / 16) % 16 * 16 + b.toNat % 16 * 4 / 4 = b.toNat by omega,
      UInt8.ofNat_toNat, UInt8.ofNat_toNat]
  | case4 a b c rest ih =>
    have := a.toNat_lt
    have := b.toNat_lt
    have := c.toNat_lt
    simp only [decode?, value?_digit (a.toNat / 4) (by omega),
      value?_digit (a.toNat % 4 * 16 + b.toNat / 16) (by omega),
      value?_digit (b.toNat % 16 * 4 + c.toNat / 64) (by omega),
      value?_digit (c.toNat % 64) (by omega),
      digit_ne_pad (b.toNat % 16 * 4 + c.toNat / 64) (by omega),
      digit_ne_pad (c.toNat % 64) (by omega), Option.bind_eq_bind, Option.bind_some,
      if_false, ih]
    rw [show a.toNat / 4 * 4 + (a.toNat % 4 * 16 + b.toNat / 16) / 16 = a.toNat by omega,
      show (a.toNat % 4 * 16 + b.toNat / 16) % 16 * 16 + (b.toNat % 16 * 4 + c.toNat / 64) / 4 =
        b.toNat by omega,
      show (b.toNat % 16 * 4 + c.toNat / 64) % 4 * 64 + c.toNat % 64 = c.toNat by omega,
      UInt8.ofNat_toNat, UInt8.ofNat_toNat, UInt8.ofNat_toNat]
    rfl

/-- Every digit stands for the number that it is written for. -/
theorem digit_of_value? {c : Char} {n : Nat} (h : value? c = some n) : n < 64 ∧ digit n = c := by
  have hsmall : c.toNat < 128 := by
    unfold value? at h
    split at h
    · rename_i hc; exact Nat.lt_of_le_of_lt hc.2 (by decide)
    · split at h
      · rename_i hc; exact Nat.lt_of_le_of_lt hc.2 (by decide)
      · split at h
        · rename_i hc; exact Nat.lt_of_le_of_lt hc.2 (by decide)
        · split at h
          · subst c; decide
          · split at h
            · subst c; decide
            · cases h
  have hdigits : ∀ k < 128, ∀ n ∈ value? (Char.ofNat k), n < 64 ∧ digit n = Char.ofNat k := by
    decide
  have hback := hdigits c.toNat hsmall n
  rw [Char.ofNat_toNat] at hback
  exact hback h

theorem eq_encode_of_decode? {cs : List Char} {b : Bytes} (h : decode? cs = some b) :
    cs = encode b := by
  fun_induction decode? cs generalizing b with
  | case1 =>
    obtain rfl := Option.some.inj h
    rfl
  | case2 w x y z rest ih =>
    simp only [Option.bind_eq_bind, Option.bind_eq_some_iff] at h
    obtain ⟨m, hw, n, hx, h⟩ := h
    obtain ⟨hm, rfl⟩ := digit_of_value? hw
    obtain ⟨hn, rfl⟩ := digit_of_value? hx
    have ha : (UInt8.ofNat (m * 4 + n / 16)).toNat = m * 4 + n / 16 := by
      rw [UInt8.toNat_ofNat', Nat.mod_eq_of_lt (by omega)]
    split at h
    · rename_i hy
      subst y
      split at h
      · rename_i hend
        obtain ⟨rfl, rfl, hbits⟩ := hend
        obtain rfl := Option.some.inj h
        simp only [encode, ha]
        rw [show (m * 4 + n / 16) / 4 = m by omega, show (m * 4 + n / 16) % 4 * 16 = n by omega]
      · cases h
    · simp only [Option.bind_eq_some_iff] at h
      obtain ⟨p, hy, h⟩ := h
      obtain ⟨hp, rfl⟩ := digit_of_value? hy
      have hb : (UInt8.ofNat (n % 16 * 16 + p / 4)).toNat = n % 16 * 16 + p / 4 := by
        rw [UInt8.toNat_ofNat', Nat.mod_eq_of_lt (by omega)]
      have hsecond : (m * 4 + n / 16) % 4 * 16 + (n % 16 * 16 + p / 4) / 16 = n := by omega
      split at h
      · rename_i hz
        subst z
        split at h
        · rename_i hend
          obtain ⟨rfl, hbits⟩ := hend
          obtain rfl := Option.some.inj h
          simp only [encode, ha, hb, hsecond]
          rw [show (m * 4 + n / 16) / 4 = m by omega,
            show (n % 16 * 16 + p / 4) % 16 * 4 = p by omega]
        · cases h
      · simp only [Option.bind_eq_some_iff] at h
        obtain ⟨q, hz, bytes, hrest, h⟩ := h
        obtain ⟨hq, rfl⟩ := digit_of_value? hz
        obtain rfl := Option.some.inj h
        have hc : (UInt8.ofNat (p % 4 * 64 + q)).toNat = p % 4 * 64 + q := by
          rw [UInt8.toNat_ofNat', Nat.mod_eq_of_lt (by omega)]
        simp only [encode, ha, hb, hc, hsecond, ih hrest]
        rw [show (m * 4 + n / 16) / 4 = m by omega,
          show (n % 16 * 16 + p / 4) % 16 * 4 + (p % 4 * 64 + q) / 64 = p by omega,
          show (p % 4 * 64 + q) % 64 = q by omega]
  | case3 => cases h

/-- Only what was written is read, so that every text has one form. -/
theorem decode?_eq_some_iff {cs : List Char} {b : Bytes} :
    decode? cs = some b ↔ cs = encode b :=
  ⟨eq_encode_of_decode?, fun h => h ▸ decode?_encode b⟩

end ContainerPorts.Base64
