import ContainerPorts.Json.Decode
import ContainerPorts.Proofs.Json.Numbers
import ContainerPorts.Proofs.Json.Strings

/-!
# Written values are read back

A value is written with blanks between its parts, or with none. Both are layouts of
one kind, and the reader skips all blanks. So it takes every layout of a value for the
same tree, whatever follows, as long as that does not go on like a number.
-/
namespace ContainerPorts.Json

open Utf8

/-- The blanks between the parts of a value. -/
structure Layout where
  /-- What stands before an item, or before a closing bracket, inside some containers. -/
  gap : ℕ → List Char
  /-- What stands after a colon. -/
  colon : List Char
  gap_blank : ∀ level, ∀ b ∈ bytes (gap level), isBlankByte b = true
  colon_blank : ∀ b ∈ bytes colon, isBlankByte b = true

namespace Layout

def compact : Layout where
  gap _ := []
  colon := []
  gap_blank _ := List.forall_mem_nil _
  colon_blank := List.forall_mem_nil _

theorem bytes_newline (level : ℕ) :
    bytes (Value.newline level) = 0x0A :: List.replicate (2 * level) 0x20 := by
  have hspaces (n : ℕ) : bytes (List.replicate n ' ') = List.replicate n 0x20 := by
    induction n with
    | zero => rfl
    | succ n ih => rw [List.replicate_succ, bytes_cons, ih]; rfl
  rw [Value.newline, bytes_cons, hspaces]
  rfl

def lines : Layout where
  gap := Value.newline
  colon := [' ']
  gap_blank level b hb := by
    rw [bytes_newline] at hb
    rcases List.mem_cons.mp hb with rfl | hb
    · rfl
    · rw [List.eq_of_mem_replicate hb]
      rfl
  colon_blank b hb := by
    obtain rfl := List.mem_singleton.mp hb
    rfl

@[simp] theorem gap_compact (level : ℕ) : compact.gap level = [] := rfl

@[simp] theorem colon_compact : compact.colon = [] := rfl

@[simp] theorem gap_lines (level : ℕ) : lines.gap level = Value.newline level := rfl

@[simp] theorem colon_lines : lines.colon = [' '] := rfl

end Layout

namespace Value

mutual

/-- The text in a layout, inside `level` containers. -/
def laid (f : Layout) (level : ℕ) : Value → List Char
  | .array (v :: vs) =>
    '[' :: f.gap (level + 1) ++ v.laid f (level + 1) ++ laidItems f level vs
  | .object ((k, v) :: ms) =>
    '\x7b' :: f.gap (level + 1) ++ stringChars k ++ ':' :: f.colon ++ v.laid f (level + 1) ++
      laidMembers f level ms
  | v => v.chars

/-- The rest of an array after an item. -/
def laidItems (f : Layout) (level : ℕ) : List Value → List Char
  | [] => f.gap level ++ [']']
  | v :: vs => ',' :: f.gap (level + 1) ++ v.laid f (level + 1) ++ laidItems f level vs

/-- The rest of an object after a member. -/
def laidMembers (f : Layout) (level : ℕ) : List (String × Value) → List Char
  | [] => f.gap level ++ ['\x7d']
  | (k, v) :: ms =>
    ',' :: f.gap (level + 1) ++ stringChars k ++ ':' :: f.colon ++ v.laid f (level + 1) ++
      laidMembers f level ms

end

mutual

theorem laid_compact : ∀ (v : Value) (level : ℕ), v.laid .compact level = v.chars
  | .array (v :: vs), level => by
    simpa [laid, laid_compact v, chars] using laidItems_compact vs level v
  | .object ((k, v) :: ms), level => by
    simpa [laid, laid_compact v, chars] using laidMembers_compact ms level k v
  | .array [], _ | .object [], _ | .null, _ | .bool _, _ | .integer _, _ | .decimal _, _
  | .string _, _ => by rw [laid] <;> nofun

theorem laidItems_compact : ∀ (vs : List Value) (level : ℕ) (v : Value),
    v.chars ++ laidItems .compact level vs = itemsChars (v :: vs) ++ [']']
  | [], level, v => by simp [laidItems, itemsChars]
  | w :: ws, level, v => by
    simpa [laidItems, laid_compact w, itemsChars] using laidItems_compact ws level w

theorem laidMembers_compact : ∀ (ms : List (String × Value)) (level : ℕ) (k : String) (v : Value),
    stringChars k ++ ':' :: v.chars ++ laidMembers .compact level ms =
      membersChars ((k, v) :: ms) ++ ['\x7d']
  | [], level, k, v => by simp [laidMembers, membersChars]
  | (l, w) :: ms, level, k, v => by
    simpa [laidMembers, laid_compact w, membersChars] using laidMembers_compact ms level l w

end

mutual

theorem laid_lines : ∀ (v : Value) (level : ℕ), v.laid .lines level = v.linesChars level
  | .array (v :: vs), level => by
    simpa [laid, laid_lines v, linesChars] using laidItems_lines vs level v
  | .object ((k, v) :: ms), level => by
    simpa [laid, laid_lines v, linesChars] using laidMembers_lines ms level k v
  | .array [], _ | .object [], _ | .null, _ | .bool _, _ | .integer _, _ | .decimal _, _
  | .string _, _ => by rw [laid, linesChars] <;> nofun

theorem laidItems_lines : ∀ (vs : List Value) (level : ℕ) (v : Value),
    newline (level + 1) ++ v.linesChars (level + 1) ++ laidItems .lines level vs =
      itemLines (level + 1) (v :: vs) ++ newline level ++ [']']
  | [], level, v => by simp [laidItems, itemLines]
  | w :: ws, level, v => by
    simpa [laidItems, laid_lines w, itemLines] using laidItems_lines ws level w

theorem laidMembers_lines : ∀ (ms : List (String × Value)) (level : ℕ) (k : String) (v : Value),
    newline (level + 1) ++ stringChars k ++ ':' :: ' ' :: v.linesChars (level + 1) ++
        laidMembers .lines level ms =
      memberLines (level + 1) ((k, v) :: ms) ++ newline level ++ ['\x7d']
  | [], level, k, v => by simp [laidMembers, memberLines]
  | (l, w) :: ms, level, k, v => by
    simpa [laidMembers, laid_lines w, memberLines] using laidMembers_lines ms level l w

end

/-! ### The tree of a value -/

mutual

/-- The tree that stands for a value without decimals. -/
def node : Value → Node
  | .null => .null
  | .bool b => .bool b
  | .integer n => .number ⟨n < 0, Nat.toDigits 10 n.natAbs, [], none⟩
  | .decimal _ => .absent
  | .string s => .string (.ok s)
  | .array vs => .array (nodes vs) .closed
  | .object ms => .object (memberNodes ms) .closed

def nodes : List Value → List Node
  | [] => []
  | v :: vs => v.node :: nodes vs

def memberNodes : List (String × Value) → List (Key × Node)
  | [] => []
  | (k, v) :: ms => (.ok k, v.node) :: memberNodes ms

end

mutual

/-- Whether no decimal is in a value. -/
def isExact : Value → Bool
  | .decimal _ => false
  | .array vs => areExact vs
  | .object ms => membersAreExact ms
  | _ => true

def areExact : List Value → Bool
  | [] => true
  | v :: vs => v.isExact && areExact vs

def membersAreExact : List (String × Value) → Bool
  | [] => true
  | (_, v) :: ms => v.isExact && membersAreExact ms

end

end Value

/-! ### One part after the other -/

theorem skipBlank_append {blank s : Bytes} (h : ∀ b ∈ blank, isBlankByte b = true) :
    skipBlank (blank ++ s) = skipBlank s := by
  induction blank with
  | nil => rfl
  | cons b blank ih =>
    obtain ⟨hb, hblank⟩ := List.forall_mem_cons.mp h
    rw [List.cons_append, skipBlank, if_pos hb, ih hblank]

theorem skipBlank_cons {b : UInt8} {s : Bytes} (h : isBlankByte b = false) :
    skipBlank (b :: s) = b :: s := by
  rw [skipBlank, if_neg (by simp [h])]

variable {fuel : ℕ} {blank s t : Bytes} {n : Node}

theorem scanValue_blank (h : ∀ b ∈ blank, isBlankByte b = true) :
    scanValue fuel (blank ++ s) = scanValue fuel s := by
  rw [scanValue.eq_def, scanValue.eq_def]
  cases fuel with
  | zero => rfl
  | succ k =>
    dsimp only
    rw [skipBlank_append h]

/-- The first byte of a value is no blank and no closing bracket. -/
def Begins (s : Bytes) : Prop := ∃ b u, s = b :: u ∧ isBlankByte b = false ∧ b ≠ 0x5D

theorem scanItems_first (hblank : ∀ b ∈ blank, isBlankByte b = true) (hs : Begins s)
    (h : scanValue fuel (s ++ t) = .whole n t) :
    scanItems (fuel + 2) [] (blank ++ (s ++ t)) = scanItems fuel [n] t := by
  obtain ⟨b, u, rfl, hb, hclose⟩ := hs
  rw [List.cons_append] at h ⊢
  rw [scanItems.eq_def]
  dsimp only
  rw [skipBlank_append hblank, skipBlank_cons hb]
  dsimp only
  rw [if_neg hclose, if_pos List.isEmpty_nil, scanItem.eq_def]
  dsimp only
  rw [h]

theorem scanItems_next {done : List Node} (hdone : done ≠ [])
    (hblank : ∀ b ∈ blank, isBlankByte b = true) (hs : Begins s)
    (h : scanValue fuel (s ++ t) = .whole n t) :
    scanItems (fuel + 2) done (0x2C :: (blank ++ (s ++ t))) = scanItems fuel (n :: done) t := by
  obtain ⟨b, u, rfl, hb, hclose⟩ := hs
  have hsome : ¬ done.isEmpty = true := by simpa using hdone
  rw [List.cons_append] at h ⊢
  rw [scanItems.eq_def]
  dsimp only
  rw [skipBlank_cons (by decide)]
  dsimp only
  rw [if_neg (by decide), if_neg hsome, if_neg (by decide), skipBlank_append hblank,
    skipBlank_cons hb]
  dsimp only
  rw [if_neg hclose, scanItem.eq_def]
  dsimp only
  rw [h]

theorem scanItems_last {done : List Node} (hblank : ∀ b ∈ blank, isBlankByte b = true) :
    scanItems (fuel + 1) done (blank ++ 0x5D :: t) = .whole (.array done.reverse .closed) t := by
  rw [scanItems.eq_def]
  dsimp only
  rw [skipBlank_append hblank, skipBlank_cons (by decide)]
  dsimp only
  rw [if_pos rfl]

/-- A member is read from its name on. -/
theorem scanMember_stringChars (comma : Bool) (done : List (Key × Node)) (k : String)
    (h : scanValue fuel s = .whole n t) :
    scanMember (fuel + 1) comma done (bytes (Value.stringChars k) ++ 0x3A :: s) =
      scanMembers fuel ((.ok k, n) :: done) t := by
  obtain ⟨u, hbytes, hread⟩ := readString_stringChars k (0x3A :: s)
  have hcolon : skipBlank (0x3A :: s) = 0x3A :: s := skipBlank_cons (by decide)
  simp only [hbytes, List.cons_append, scanMember, hread, hcolon, h, ↓reduceIte]

theorem begins_stringChars (k : String) : ∃ u, bytes (Value.stringChars k) = 0x22 :: u := by
  obtain ⟨u, hbytes, -⟩ := readString_stringChars k []
  exact ⟨u, hbytes⟩

theorem scanMembers_first (hblank : ∀ b ∈ blank, isBlankByte b = true) {k : String}
    (h : scanValue fuel s = .whole n t) :
    scanMembers (fuel + 2) [] (blank ++ (bytes (Value.stringChars k) ++ 0x3A :: s)) =
      scanMembers fuel [(.ok k, n)] t := by
  have hmember := scanMember_stringChars false [] k h
  obtain ⟨u, hbytes⟩ := begins_stringChars k
  rw [hbytes, List.cons_append] at hmember ⊢
  rw [scanMembers.eq_def]
  dsimp only
  rw [skipBlank_append hblank, skipBlank_cons (by decide)]
  dsimp only
  rw [if_neg (by decide), if_pos List.isEmpty_nil, hmember]

theorem scanMembers_next {done : List (Key × Node)} (hdone : done ≠ [])
    (hblank : ∀ b ∈ blank, isBlankByte b = true) {k : String}
    (h : scanValue fuel s = .whole n t) :
    scanMembers (fuel + 2) done
        (0x2C :: (blank ++ (bytes (Value.stringChars k) ++ 0x3A :: s))) =
      scanMembers fuel ((.ok k, n) :: done) t := by
  have hsome : ¬ done.isEmpty = true := by simpa using hdone
  have hmember := scanMember_stringChars true done k h
  obtain ⟨u, hbytes⟩ := begins_stringChars k
  rw [hbytes, List.cons_append] at hmember ⊢
  rw [scanMembers.eq_def]
  dsimp only
  rw [skipBlank_cons (by decide)]
  dsimp only
  rw [if_neg (by decide), if_neg hsome, if_neg (by decide), skipBlank_append hblank,
    skipBlank_cons (by decide)]
  dsimp only
  rw [hmember]

theorem scanMembers_last {done : List (Key × Node)} (hblank : ∀ b ∈ blank, isBlankByte b = true) :
    scanMembers (fuel + 1) done (blank ++ 0x7D :: t) = .whole (.object done.reverse .closed) t := by
  rw [scanMembers.eq_def]
  dsimp only
  rw [skipBlank_append hblank, skipBlank_cons (by decide)]
  dsimp only
  rw [if_pos rfl]

/-! ### Values -/

namespace Value

variable {rest : Bytes}

theorem scanValue_null :
    scanValue (fuel + 1) (bytes "null".toList ++ rest) = .whole .null rest := by
  change scanValue (fuel + 1) (0x6E :: 0x75 :: 0x6C :: 0x6C :: rest) = _
  simp [scanValue, skipBlank, isBlankByte, isDigitByte, scanWord]

theorem scanValue_bool (b : Bool) :
    scanValue (fuel + 1) (bytes (Value.bool b).chars ++ rest) = .whole (.bool b) rest := by
  cases b with
  | false =>
    change scanValue (fuel + 1) (0x66 :: 0x61 :: 0x6C :: 0x73 :: 0x65 :: rest) = _
    simp [scanValue, skipBlank, isBlankByte, isDigitByte, scanWord]
  | true =>
    change scanValue (fuel + 1) (0x74 :: 0x72 :: 0x75 :: 0x65 :: rest) = _
    simp [scanValue, skipBlank, isBlankByte, isDigitByte, scanWord]

/-- Where a digit stands no other byte does. -/
theorem ne_of_isDigitByte {b d : UInt8} (hb : isDigitByte b = true) (hd : isDigitByte d = false) :
    b ≠ d := by
  rintro rfl
  cases hb.symm.trans hd

theorem bytes_toDigits (n : ℕ) :
    ∃ b u, bytes (Nat.toDigits 10 n) = b :: u ∧ isDigitByte b = true := by
  obtain ⟨c, cs, hdigits⟩ := List.exists_cons_of_ne_nil (Nat.toDigits_ne_nil (b := 10) (n := n))
  have hc : c.isDigit = true :=
    Nat.isDigit_of_mem_toDigits (by decide) (by decide) (hdigits ▸ List.mem_cons_self)
  obtain ⟨hbytes, hdigit, -⟩ := isDigitByte_ofNat hc
  exact ⟨_, bytes cs, by rw [hdigits, bytes_cons, hbytes]; rfl, hdigit⟩

theorem isBlankByte_of_isDigitByte {b : UInt8} (hb : isDigitByte b = true) :
    isBlankByte b = false := by
  cases h : isBlankByte b with
  | false => rfl
  | true =>
    have hcases : ((b = 0x20 ∨ b = 0x0A) ∨ b = 0x0D) ∨ b = 0x09 := by simpa [isBlankByte] using h
    rcases hcases with ((rfl | rfl) | rfl) | rfl <;> cases hb

theorem scanValue_integer (n : Int) (hrest : Stops rest) :
    scanValue (fuel + 1) (bytes (integerChars n) ++ rest) = .whole (node (.integer n)) rest := by
  have hnumber (negative : Bool) := scanNumber_toDigits negative n.natAbs hrest
  obtain ⟨b, u, hbytes, hdigit⟩ := bytes_toDigits n.natAbs
  unfold integerChars
  split_ifs with hn
  · rw [bytes_cons, List.append_assoc]
    change scanValue (fuel + 1) (0x2D :: (bytes (Nat.toDigits 10 n.natAbs) ++ rest)) = _
    rw [scanValue.eq_def]
    dsimp only
    rw [skipBlank_cons (by decide)]
    dsimp only
    rw [if_neg (by decide), if_neg (by decide), if_neg (by decide), if_pos rfl, hnumber]
    simp [node, hn]
  · have hsecond := hnumber false
    rw [hbytes, List.cons_append] at hsecond ⊢
    rw [scanValue.eq_def]
    dsimp only
    rw [skipBlank_cons (isBlankByte_of_isDigitByte hdigit)]
    dsimp only
    rw [if_neg (ne_of_isDigitByte hdigit (by decide)), if_neg (ne_of_isDigitByte hdigit (by decide)),
      if_neg (ne_of_isDigitByte hdigit (by decide)), if_neg (ne_of_isDigitByte hdigit (by decide)),
      if_pos hdigit, hsecond]
    simp [node, hn]

theorem scanValue_string (k : String) :
    scanValue (fuel + 1) (bytes (stringChars k) ++ rest) = .whole (.string (.ok k)) rest := by
  obtain ⟨u, hbytes, hread⟩ := readString_stringChars k rest
  rw [hbytes, List.cons_append, scanValue.eq_def]
  dsimp only
  rw [skipBlank_cons (by decide)]
  dsimp only
  rw [if_pos rfl, hread]

theorem scanValue_bracket (s : Bytes) :
    scanValue (fuel + 1) (0x5B :: s) = scanItems fuel [] s ∧
      scanValue (fuel + 1) (0x7B :: s) = scanMembers fuel [] s := by
  constructor <;> simp [scanValue, skipBlank, isBlankByte]

theorem begins_laid (f : Layout) (level : ℕ) {v : Value} (hv : v.isExact = true) :
    Begins (bytes (v.laid f level)) := by
  cases v with
  | null => exact ⟨0x6E, _, rfl, by decide, by decide⟩
  | bool b => cases b <;> exact ⟨_, _, rfl, by decide, by decide⟩
  | integer n =>
    obtain ⟨b, u, hbytes, hdigit⟩ := bytes_toDigits n.natAbs
    rw [laid, chars, integerChars]
    · split_ifs
      · exact ⟨0x2D, bytes (Nat.toDigits 10 n.natAbs), rfl, by decide, by decide⟩
      · exact ⟨b, u, hbytes, isBlankByte_of_isDigitByte hdigit,
          ne_of_isDigitByte hdigit (by decide)⟩
    · nofun
    · nofun
  | decimal literal => cases hv
  | string k =>
    obtain ⟨u, hbytes⟩ := begins_stringChars k
    exact ⟨0x22, u, hbytes, by decide, by decide⟩
  | array vs => cases vs <;> exact ⟨0x5B, _, rfl, by decide, by decide⟩
  | object ms => cases ms <;> exact ⟨0x7B, _, rfl, by decide, by decide⟩

theorem stops_gap (f : Layout) (level : ℕ) {b : UInt8} {s : Bytes}
    (hb : b = 0x2C ∨ b = 0x5D ∨ b = 0x7D) : Stops (bytes (f.gap level) ++ b :: s) := by
  cases hgap : bytes (f.gap level) with
  | nil => exact stops_cons (.inr hb)
  | cons g gs =>
    exact stops_cons (.inl (f.gap_blank level g (by rw [hgap]; exact List.mem_cons_self)))

theorem stops_laidItems (f : Layout) (level : ℕ) (vs : List Value) (rest : Bytes) :
    Stops (bytes (laidItems f level vs) ++ rest) := by
  cases vs with
  | nil =>
    rw [laidItems, bytes_append, List.append_assoc]
    exact stops_gap f level (.inr (.inl rfl))
  | cons v vs => exact stops_cons (b := 0x2C) (.inr (.inl rfl))

theorem stops_laidMembers (f : Layout) (level : ℕ) (ms : List (String × Value)) (rest : Bytes) :
    Stops (bytes (laidMembers f level ms) ++ rest) := by
  cases ms with
  | nil =>
    rw [laidMembers, bytes_append, List.append_assoc]
    exact stops_gap f level (.inr (.inr rfl))
  | cons m ms => exact stops_cons (b := 0x2C) (.inr (.inl rfl))

/-- A reader with three units of fuel for each byte has three at the first byte. -/
theorem exists_fuel {n fuel : ℕ} (hn : 0 < n) (h : 3 * n ≤ fuel) : ∃ k, fuel = k + 3 :=
  ⟨fuel - 3, by omega⟩

theorem length_laid_pos (f : Layout) (level : ℕ) {v : Value} (hv : v.isExact = true) :
    0 < (bytes (v.laid f level)).length := by
  obtain ⟨b, u, hbytes, -⟩ := begins_laid f level hv
  rw [hbytes]
  exact Nat.succ_pos _

mutual

theorem scanValue_laid (f : Layout) : ∀ (v : Value) (level fuel : ℕ) (rest : Bytes),
    v.isExact = true → Stops rest → 3 * (bytes (v.laid f level)).length ≤ fuel →
      scanValue fuel (bytes (v.laid f level) ++ rest) = .whole v.node rest
  | .null, level, fuel, rest, hv, _, hfuel => by
    obtain ⟨k, rfl⟩ := exists_fuel (length_laid_pos f level hv) hfuel
    exact scanValue_null
  | .bool b, level, fuel, rest, hv, _, hfuel => by
    obtain ⟨k, rfl⟩ := exists_fuel (length_laid_pos f level hv) hfuel
    exact scanValue_bool b
  | .integer n, level, fuel, rest, hv, hrest, hfuel => by
    obtain ⟨k, rfl⟩ := exists_fuel (length_laid_pos f level hv) hfuel
    exact scanValue_integer n hrest
  | .string s, level, fuel, rest, hv, _, hfuel => by
    obtain ⟨k, rfl⟩ := exists_fuel (length_laid_pos f level hv) hfuel
    exact scanValue_string s
  | .array [], level, fuel, rest, hv, _, hfuel => by
    obtain ⟨k, rfl⟩ := exists_fuel (length_laid_pos f level hv) hfuel
    exact (scanValue_bracket _).1.trans (scanItems_last (List.forall_mem_nil _))
  | .object [], level, fuel, rest, hv, _, hfuel => by
    obtain ⟨k, rfl⟩ := exists_fuel (length_laid_pos f level hv) hfuel
    exact (scanValue_bracket _).2.trans (scanMembers_last (List.forall_mem_nil _))
  | .array (v :: vs), level, fuel, rest, hv, _, hfuel => by
    obtain ⟨k, rfl⟩ := exists_fuel (length_laid_pos f level hv) hfuel
    obtain ⟨hfirst, hvs⟩ := Bool.and_eq_true_iff.mp hv
    have hbytes : bytes ((Value.array (v :: vs)).laid f level) = 0x5B :: (bytes (f.gap (level + 1)) ++
        (bytes (v.laid f (level + 1)) ++ bytes (laidItems f level vs))) := by
      simp only [laid, bytes_cons, bytes_append, List.cons_append, List.append_assoc]
      rfl
    have hlength := length_laid_pos f (level + 1) hfirst
    rw [hbytes] at hfuel ⊢
    simp only [List.length_cons, List.length_append] at hfuel
    have hitem := scanValue_laid f v (level + 1) k (bytes (laidItems f level vs) ++ rest) hfirst
      (stops_laidItems f level vs rest) (by omega)
    simp only [List.cons_append, List.append_assoc]
    rw [(scanValue_bracket _).1, scanItems_first (f.gap_blank _) (begins_laid f _ hfirst) hitem]
    exact scanItems_laid f vs level k [v.node] rest hvs (List.cons_ne_nil _ _) (by omega)
  | .object ((name, v) :: ms), level, fuel, rest, hv, _, hfuel => by
    obtain ⟨k, rfl⟩ := exists_fuel (length_laid_pos f level hv) hfuel
    obtain ⟨hfirst, hms⟩ := Bool.and_eq_true_iff.mp hv
    have hbytes : bytes ((Value.object ((name, v) :: ms)).laid f level) =
        0x7B :: (bytes (f.gap (level + 1)) ++ (bytes (stringChars name) ++ 0x3A :: (bytes f.colon ++
          (bytes (v.laid f (level + 1)) ++ bytes (laidMembers f level ms))))) := by
      simp only [laid, bytes_cons, bytes_append, List.cons_append, List.append_assoc]
      rfl
    rw [hbytes] at hfuel ⊢
    simp only [List.length_cons, List.length_append] at hfuel
    have hmember := scanValue_laid f v (level + 1) k (bytes (laidMembers f level ms) ++ rest) hfirst
      (stops_laidMembers f level ms rest) (by omega)
    simp only [List.cons_append, List.append_assoc]
    rw [(scanValue_bracket _).2, scanMembers_first (f.gap_blank _)
      ((scanValue_blank f.colon_blank).trans hmember)]
    exact scanMembers_laid f ms level k [(.ok name, v.node)] rest hms (List.cons_ne_nil _ _)
      (by omega)

theorem scanItems_laid (f : Layout) : ∀ (vs : List Value) (level fuel : ℕ) (done : List Node)
    (rest : Bytes), areExact vs = true → done ≠ [] →
      3 * (bytes (laidItems f level vs)).length ≤ fuel →
        scanItems fuel done (bytes (laidItems f level vs) ++ rest) =
          .whole (.array (done.reverse ++ nodes vs) .closed) rest
  | [], level, fuel, done, rest, _, _, hfuel => by
    have hbytes : bytes (laidItems f level []) = bytes (f.gap level) ++ [0x5D] := bytes_append _ _
    rw [hbytes, List.length_append] at hfuel
    obtain ⟨k, rfl⟩ := exists_fuel (Nat.succ_pos _) hfuel
    rw [hbytes, List.append_assoc, nodes, List.append_nil]
    exact scanItems_last (f.gap_blank level)
  | v :: vs, level, fuel, done, rest, hvs, hdone, hfuel => by
    obtain ⟨hfirst, hvs⟩ := Bool.and_eq_true_iff.mp hvs
    have hbytes : bytes (laidItems f level (v :: vs)) = 0x2C :: (bytes (f.gap (level + 1)) ++
        (bytes (v.laid f (level + 1)) ++ bytes (laidItems f level vs))) := by
      simp only [laidItems, bytes_cons, bytes_append, List.cons_append, List.append_assoc]
      rfl
    rw [hbytes, List.length_cons] at hfuel
    obtain ⟨k, rfl⟩ := exists_fuel (Nat.succ_pos _) hfuel
    simp only [List.length_append] at hfuel
    have hitem := scanValue_laid f v (level + 1) (k + 1) (bytes (laidItems f level vs) ++ rest)
      hfirst (stops_laidItems f level vs rest) (by omega)
    rw [hbytes]
    simp only [List.cons_append, List.append_assoc]
    rw [scanItems_next hdone (f.gap_blank _) (begins_laid f _ hfirst) hitem,
      scanItems_laid f vs level (k + 1) (v.node :: done) rest hvs (List.cons_ne_nil _ _) (by omega),
      List.reverse_cons, List.append_assoc]
    rfl

theorem scanMembers_laid (f : Layout) : ∀ (ms : List (String × Value)) (level fuel : ℕ)
    (done : List (Key × Node)) (rest : Bytes), membersAreExact ms = true → done ≠ [] →
      3 * (bytes (laidMembers f level ms)).length ≤ fuel →
        scanMembers fuel done (bytes (laidMembers f level ms) ++ rest) =
          .whole (.object (done.reverse ++ memberNodes ms) .closed) rest
  | [], level, fuel, done, rest, _, _, hfuel => by
    have hbytes : bytes (laidMembers f level []) = bytes (f.gap level) ++ [0x7D] := bytes_append _ _
    rw [hbytes, List.length_append] at hfuel
    obtain ⟨k, rfl⟩ := exists_fuel (Nat.succ_pos _) hfuel
    rw [hbytes, List.append_assoc, memberNodes, List.append_nil]
    exact scanMembers_last (f.gap_blank level)
  | (name, v) :: ms, level, fuel, done, rest, hms, hdone, hfuel => by
    obtain ⟨hfirst, hms⟩ := Bool.and_eq_true_iff.mp hms
    have hbytes : bytes (laidMembers f level ((name, v) :: ms)) = 0x2C :: (bytes (f.gap (level + 1)) ++
        (bytes (stringChars name) ++ 0x3A :: (bytes f.colon ++
          (bytes (v.laid f (level + 1)) ++ bytes (laidMembers f level ms))))) := by
      simp only [laidMembers, bytes_cons, bytes_append, List.cons_append, List.append_assoc]
      rfl
    rw [hbytes, List.length_cons] at hfuel
    obtain ⟨k, rfl⟩ := exists_fuel (Nat.succ_pos _) hfuel
    simp only [List.length_append, List.length_cons] at hfuel
    have hmember := scanValue_laid f v (level + 1) (k + 1) (bytes (laidMembers f level ms) ++ rest)
      hfirst (stops_laidMembers f level ms rest) (by omega)
    rw [hbytes]
    simp only [List.cons_append, List.append_assoc]
    rw [scanMembers_next hdone (f.gap_blank _) ((scanValue_blank f.colon_blank).trans hmember),
      scanMembers_laid f ms level (k + 1) ((.ok name, v.node) :: done) rest hms
        (List.cons_ne_nil _ _) (by omega), List.reverse_cons, List.append_assoc]
    rfl

end

/-- The whole text of a value, in any layout, is read as its tree. -/
theorem ofBytes_laid (f : Layout) {v : Value} (hv : v.isExact = true) :
    Document.ofBytes (bytes (v.laid f 0)) = ⟨v.node, false⟩ := by
  have hscan := scanValue_laid f v 0 (3 * (bytes (v.laid f 0)).length + 3) [] hv stops_nil (by omega)
  rw [List.append_nil] at hscan
  rw [Document.ofBytes, hscan]
  rfl

theorem ofBytes_text {v : Value} (hv : v.isExact = true) :
    Document.ofBytes (Utf8.encode v.text) = ⟨v.node, false⟩ := by
  rw [text, encode_ofList, ← laid_compact v 0, ofBytes_laid .compact hv]

theorem ofBytes_lines {v : Value} (hv : v.isExact = true) :
    Document.ofBytes (Utf8.encode v.lines) = ⟨v.node, false⟩ := by
  rw [lines, encode_ofList, ← laid_lines v 0, ofBytes_laid .lines hv]

end Value

end ContainerPorts.Json
