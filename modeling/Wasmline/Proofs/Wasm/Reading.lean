import Mathlib.Algebra.Group.Nat.Defs
import Mathlib.Control.Basic
import Wasmline.Wasm.Binary

/-!
# Reading the parts of a binary

A reader takes something from the front of a list of bytes and leaves the rest. What is said of it is
`Reads`: these bytes, in front of whatever follows, are read as this value. That form goes along with
reading one thing after another (`Reads.bind`), so that a reader of a format is followed through the
bytes of a writer part by part.

The readers here are those of the parts that every binary is made of: numbers of a given width in
LEB128, bytes and items behind their number, and names. They accept any form of a number that fits the
width, not only the shortest; `reads_unsigned` and `reads_signed` say that the shortest is one of them.
-/

namespace Wasmline.Wasm

/-- Takes something from the front of bytes, if they start with a form of it. -/
abbrev Reader := StateT (List UInt8) Option

variable {α β : Type}

/-- These bytes are read as `a`, whatever follows them. -/
def Reads (read : Reader α) (bytes : List UInt8) (a : α) : Prop :=
  ∀ rest, read.run (bytes ++ rest) = some (a, rest)

namespace Reads

variable {read : Reader α} {bytes bytes' : List UInt8} {a : α} {b : β}

theorem pure (a : α) : Reads (Pure.pure a : Reader α) [] a := by
  intro rest
  rfl

/-- One thing is read after another. -/
theorem bind {next : α → Reader β} (h : Reads read bytes a) (h' : Reads (next a) bytes' b) :
    Reads (read >>= next) (bytes ++ bytes') b := by
  intro rest
  rw [List.append_assoc, StateT.run_bind, h]
  exact h' rest

/-- What was read is made into something else. -/
theorem bind_pure (h : Reads read bytes a) (f : α → β) :
    Reads (read >>= fun a => Pure.pure (f a)) bytes (f a) := by
  rw [← List.append_nil bytes]
  exact h.bind (Reads.pure (f a))

/-- What was read is made into something else, if it can be. -/
theorem bind_lift {f : α → Option β} (h : Reads read bytes a) (hmade : f a = some b) :
    Reads (read >>= fun a => StateT.lift (f a)) bytes b := by
  intro rest
  rw [StateT.run_bind, h]
  simp [hmade]

end Reads

namespace Read

/-! ### Bytes -/

/-- A byte. -/
def byte : Reader UInt8
  | [] => none
  | b :: rest => some (b, rest)

theorem reads_byte (b : UInt8) : Reads byte [b] b := by
  intro rest
  rfl

/-- So many bytes. -/
def take (count : Nat) : Reader (List UInt8) := fun bytes =>
  if count ≤ bytes.length then some (bytes.take count, bytes.drop count) else none

theorem reads_take (bytes : List UInt8) : Reads (take bytes.length) bytes bytes := by
  intro rest
  simp [take, StateT.run]

/-- Just these bytes. -/
def expect (bytes : List UInt8) : Reader Unit := do
  guard ((← take bytes.length) = bytes)

theorem reads_expect (bytes : List UInt8) : Reads (expect bytes) bytes () := by
  intro rest
  rw [expect, StateT.run_bind, reads_take]
  simp [guard]

/-! ### Numbers -/

/-- A natural number of at most `bits` bits, seven of them in a byte, lowest first. -/
def unsigned (bits : Nat) : Reader Nat
  | [] => none
  | b :: rest =>
    if b.toNat < 128 then
      if b.toNat < 2 ^ bits then some (b.toNat, rest) else none
    else if 7 < bits then
      (unsigned (bits - 7) rest).map fun (n, rest) => (128 * n + (b.toNat - 128), rest)
    else none

/-- An integer of `bits` bits, one of them for the sign, seven in a byte, lowest first. -/
def signed (bits : Nat) : Reader Int
  | [] => none
  | b :: rest =>
    if b.toNat < 64 then
      if b.toNat < 2 ^ (bits - 1) then some (b.toNat, rest) else none
    else if b.toNat < 128 then
      if 128 ≤ b.toNat + 2 ^ (bits - 1) then some (b.toNat - 128, rest) else none
    else if 7 < bits then
      (signed (bits - 7) rest).map fun (n, rest) => (128 * n + (b.toNat - 128), rest)
    else none

/-- A number of more than seven bits goes on for those above the lowest seven. -/
theorem two_pow_split {bits : Nat} (hmany : 7 ≤ bits) : 2 ^ bits = 128 * 2 ^ (bits - 7) := by
  rw [← Nat.pow_add 2 7 (bits - 7), Nat.add_sub_cancel' hmany]

theorem lt_of_two_pow_lt {m n : Nat} (h : 2 ^ m < 2 ^ n) : m < n :=
  (Nat.pow_lt_pow_iff_right (by decide)).mp h

theorem toNat_toUInt8 {n : Nat} (hsmall : n < 256) : n.toUInt8.toNat = n := by
  rw [Nat.toUInt8_eq, UInt8.toNat_ofNat', Nat.mod_eq_of_lt hsmall]

/-- A number that fits the width is read from its shortest form. -/
theorem reads_unsigned (n : Nat) : {bits : Nat} → n < 2 ^ bits →
    Reads (unsigned bits) (Leb128.unsigned n) n := by
  fun_induction Leb128.unsigned n with
  | case1 n hsmall =>
      intro bits hfits rest
      have hlast := toNat_toUInt8 (show n < 256 by omega)
      simp only [StateT.run, List.cons_append, List.nil_append, unsigned, hlast, hsmall, hfits, if_true]
  | case2 n hlarge ih =>
      intro bits hfits rest
      have hmany : 7 < bits := lt_of_two_pow_lt (Nat.lt_of_le_of_lt (Nat.not_lt.mp hlarge) hfits)
      have hfirst := toNat_toUInt8 (show n % 128 + 128 < 256 by omega)
      have hhigh : unsigned (bits - 7) (Leb128.unsigned (n / 128) ++ rest) = some (n / 128, rest) := by
        rw [two_pow_split (Nat.le_of_lt hmany)] at hfits
        exact ih (Nat.div_lt_of_lt_mul hfits) rest
      have hmore : ¬n % 128 + 128 < 128 := by omega
      simp only [StateT.run, List.cons_append, unsigned, hfirst, hmore, hmany, hhigh, if_true, if_false,
        Option.map_some, Nat.add_sub_cancel, Nat.div_add_mod]

/-- An integer that fits the width is read from its shortest form. -/
theorem reads_signed (n : Int) : {bits : Nat} →
    -(2 ^ (bits - 1) : Nat) ≤ n → n < (2 ^ (bits - 1) : Nat) →
    Reads (signed bits) (Leb128.signed n) n := by
  fun_induction Leb128.signed n with
  | case1 n hsmall =>
      intro bits hlow hhigh rest
      have hlast := toNat_toUInt8 (show (n % 128).toNat < 256 by omega)
      simp only [StateT.run, List.cons_append, List.nil_append, signed, hlast]
      -- the sign is the seventh bit
      by_cases hpositive : 0 ≤ n
      · have hsame : (n % 128).toNat = n.toNat := by omega
        rw [hsame, if_pos (by omega), if_pos (by omega), Int.toNat_of_nonneg hpositive]
      · have hsame : ((n % 128).toNat : Int) = n + 128 := by omega
        rw [if_neg (by omega), if_pos (by omega), if_pos (by omega), hsame, Int.add_sub_cancel]
  | case2 n hlarge ih =>
      intro bits hlow hhigh rest
      have hwide : 6 < bits - 1 := lt_of_two_pow_lt (show 64 < 2 ^ (bits - 1) by omega)
      have hmany : 7 < bits := by omega
      have hfirst := toNat_toUInt8 (show (n % 128 + 128).toNat < 256 by omega)
      have hsame : ((n % 128 + 128).toNat : Int) = n % 128 + 128 := by omega
      have habove : signed (bits - 7) (Leb128.signed (n / 128) ++ rest) = some (n / 128, rest) := by
        have hsplit : 2 ^ (bits - 1) = 128 * 2 ^ (bits - 7 - 1) := by
          rw [two_pow_split (show 7 ≤ bits - 1 by omega), Nat.sub_right_comm]
        exact ih (by omega) (by omega) rest
      simp only [StateT.run, List.cons_append, signed, hfirst]
      rw [if_neg (by omega), if_neg (by omega), if_pos hmany, habove, Option.map_some, hsame,
        Int.add_sub_cancel, Int.mul_ediv_add_emod]

/-- A natural number of 32 bits: a count, a size or an index. -/
def u32 : Reader Nat :=
  unsigned 32

theorem reads_u32 {n : Nat} (hfits : n < 2 ^ 32) : Reads u32 (Leb128.unsigned n) n :=
  reads_unsigned n hfits

/-- A number of at most seven bits is its own byte. -/
theorem reads_u32_of_lt {n : Nat} (hsmall : n < 128) : Reads u32 [n.toUInt8] n := by
  have hread := reads_u32 (show n < 2 ^ 32 by omega)
  rwa [Leb128.unsigned, if_pos hsmall] at hread

/-- An integer of 32 bits. -/
def i32 : Reader Int32 := do
  return Int32.ofInt (← signed 32)

theorem reads_i32 (value : Int32) : Reads i32 (Leb128.signed value.toInt) value := by
  have hread : Reads (signed 32) (Leb128.signed value.toInt) value.toInt :=
    reads_signed value.toInt value.le_toInt value.toInt_lt
  have hmade := hread.bind_pure Int32.ofInt
  rwa [Int32.ofInt_toInt] at hmade

/-! ### Bytes and items behind their number -/

/-- All of the bytes are read as one thing. -/
def whole (read : Reader α) (bytes : List UInt8) : Option α :=
  match read.run bytes with
  | some (a, []) => some a
  | _ => none

theorem whole_of_reads {read : Reader α} {bytes : List UInt8} {a : α} (h : Reads read bytes a) :
    whole read bytes = some a := by
  have hall := h []
  rw [List.append_nil] at hall
  rw [whole, hall]

/-- Bytes behind their number. -/
def chunk : Reader (List UInt8) := do
  take (← u32)

theorem reads_chunk {bytes : List UInt8} (hsmall : bytes.length < 2 ^ 32) :
    Reads chunk (Wasm.sized bytes) bytes :=
  (reads_u32 hsmall).bind (reads_take bytes)

theorem length_le_sized (bytes : List UInt8) : bytes.length ≤ (Wasm.sized bytes).length := by
  rw [Wasm.sized, List.length_append]
  exact Nat.le_add_left _ _

/-- Something behind its size, with nothing after it in that size. -/
def sized (read : Reader α) : Reader α := do
  StateT.lift (whole read (← chunk))

theorem reads_sized {read : Reader α} {bytes : List UInt8} {a : α} (h : Reads read bytes a)
    (hsmall : bytes.length < 2 ^ 32) : Reads (sized read) (Wasm.sized bytes) a :=
  (reads_chunk hsmall).bind_lift (whole_of_reads h)

/-- A text behind its size. -/
def name : Reader String := do
  StateT.lift (Text.ofUtf8? (← chunk))

theorem reads_name {s : String} (hsmall : Text.utf8Size s.toList < 2 ^ 32) :
    Reads name (nameBytes s) s := by
  rw [← Text.length_utf8] at hsmall
  exact (reads_chunk hsmall).bind_lift (Text.ofUtf8?_utf8 s)

/-- So many items. -/
def times (read : Reader α) : Nat → Reader (List α)
  | 0 => return []
  | count + 1 => do
    let item ← read
    let items ← times read count
    return item :: items

/-- Items behind their number. -/
def vector (read : Reader α) : Reader (List α) := do
  times read (← u32)

theorem length_le_vector {items : List (List UInt8)} {item : List UInt8} (hmem : item ∈ items) :
    item.length ≤ (Wasm.vector items).length := by
  rw [Wasm.vector, List.length_append]
  exact Nat.le_add_left_of_le (List.sublist_flatten_of_mem hmem).length_le

section Items

variable {read : Reader α} {items : List β} {write : β → List UInt8} {value : β → α}

theorem reads_times (h : ∀ item ∈ items, Reads read (write item) (value item)) :
    Reads (times read items.length) (items.map write).flatten (items.map value) := by
  induction items with
  | nil => exact Reads.pure []
  | cons item items ih =>
      have hfirst := h item List.mem_cons_self
      have hothers := ih fun other hmem => h other (List.mem_cons_of_mem item hmem)
      exact hfirst.bind (hothers.bind_pure (value item :: ·))

theorem reads_vector (h : ∀ item ∈ items, Reads read (write item) (value item))
    (hfew : items.length < 2 ^ 32) :
    Reads (vector read) (Wasm.vector (items.map write)) (items.map value) := by
  have hcounted : Reads u32 (Leb128.unsigned (items.map write).length) items.length := by
    rw [List.length_map]
    exact reads_u32 hfew
  exact hcounted.bind (reads_times h)

end Items

/-- No items. -/
theorem reads_vector_nil (read : Reader α) : Reads (vector read) [0x00] [] := by
  have hzero : Reads u32 [0x00] 0 := reads_u32_of_lt (by decide)
  exact hzero.bind (Reads.pure [])

/-! ### Items up to the end -/

/-- All of the bytes are read as one thing after another, each of at least a byte. -/
def many (read : Reader α) (bytes : List UInt8) : Option (List α) :=
  if bytes = [] then some []
  else do
    let (item, rest) ← read.run bytes
    if rest.length < bytes.length then return item :: (← many read rest) else none
termination_by bytes.length

theorem many_of_reads {read : Reader α} {items : List β} {write : β → List UInt8} {value : β → α}
    (h : ∀ item ∈ items, Reads read (write item) (value item))
    (hnonempty : ∀ item ∈ items, write item ≠ []) :
    many read (items.flatMap write) = some (items.map value) := by
  induction items with
  | nil => simp [many]
  | cons item items ih =>
      have hfirst := h item List.mem_cons_self (items.flatMap write)
      have hsome_bytes := hnonempty item List.mem_cons_self
      have hshorter : 0 < (write item).length := List.length_pos_iff.mpr hsome_bytes
      have hothers := ih (fun other hmem => h other (List.mem_cons_of_mem item hmem))
        fun other hmem => hnonempty other (List.mem_cons_of_mem item hmem)
      rw [List.flatMap_cons, many]
      simp [hfirst, hsome_bytes, hshorter, hothers]

end Read

end Wasmline.Wasm
