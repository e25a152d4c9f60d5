/-
This file models the names of `ff.c` with long file names and code page 1252.

`create_name` turns a segment of a path into a long name in Unicode and a short name in
the form of a directory entry. The conversion may lose something, and then the short
name is only a proposal: `gen_numname` puts a number behind it.
-/

import Hdfmonkey.FatFs

namespace Hdfmonkey

/-! ### The code page -/

/-- `Tbl`: the Unicode characters of 0x80 to 0xFF. -/
def tbl : List Nat := [
  0x20AC, 0x0000, 0x201A, 0x0192, 0x201E, 0x2026, 0x2020, 0x2021, 0x02C6, 0x2030, 0x0160, 0x2039,
  0x0152, 0x0000, 0x017D, 0x0000, 0x0000, 0x2018, 0x2019, 0x201C, 0x201D, 0x2022, 0x2013, 0x2014,
  0x02DC, 0x2122, 0x0161, 0x203A, 0x0153, 0x0000, 0x017E, 0x0178, 0x00A0, 0x00A1, 0x00A2, 0x00A3,
  0x00A4, 0x00A5, 0x00A6, 0x00A7, 0x00A8, 0x00A9, 0x00AA, 0x00AB, 0x00AC, 0x00AD, 0x00AE, 0x00AF,
  0x00B0, 0x00B1, 0x00B2, 0x00B3, 0x00B4, 0x00B5, 0x00B6, 0x00B7, 0x00B8, 0x00B9, 0x00BA, 0x00BB,
  0x00BC, 0x00BD, 0x00BE, 0x00BF, 0x00C0, 0x00C1, 0x00C2, 0x00C3, 0x00C4, 0x00C5, 0x00C6, 0x00C7,
  0x00C8, 0x00C9, 0x00CA, 0x00CB, 0x00CC, 0x00CD, 0x00CE, 0x00CF, 0x00D0, 0x00D1, 0x00D2, 0x00D3,
  0x00D4, 0x00D5, 0x00D6, 0x00D7, 0x00D8, 0x00D9, 0x00DA, 0x00BD, 0x00DC, 0x00DD, 0x00DE, 0x00DF,
  0x00E0, 0x00E1, 0x00E2, 0x00E3, 0x00E4, 0x00E5, 0x00E6, 0x00E7, 0x00E8, 0x00E9, 0x00EA, 0x00EB,
  0x00EC, 0x00ED, 0x00EE, 0x00EF, 0x00F0, 0x00F1, 0x00F2, 0x00F3, 0x00F4, 0x00F5, 0x00F6, 0x00F7,
  0x00F8, 0x00F9, 0x00FA, 0x00FB, 0x00FC, 0x00FD, 0x00FE, 0x00FF]

/-- `_EXCVT`: the upper case of 0x80 to 0xFF. -/
def excvt : List Nat := [
  0x80, 0x81, 0x82, 0x83, 0x84, 0x85, 0x86, 0x87, 0x88, 0x89, 0x8A, 0x8B, 0x8C, 0x8D, 0x8E, 0x8F,
  0x90, 0x91, 0x92, 0x93, 0x94, 0x95, 0x96, 0x97, 0x98, 0x99, 0xAD, 0x9B, 0x8C, 0x9D, 0xAE, 0x9F,
  0xA0, 0x21, 0xA2, 0xA3, 0xA4, 0xA5, 0xA6, 0xA7, 0xA8, 0xA9, 0xAA, 0xAB, 0xAC, 0xAD, 0xAE, 0xAF,
  0xB0, 0xB1, 0xB2, 0xB3, 0xB4, 0xB5, 0xB6, 0xB7, 0xB8, 0xB9, 0xBA, 0xBB, 0xBC, 0xBD, 0xBE, 0xBF,
  0xC0, 0xC1, 0xC2, 0xC3, 0xC4, 0xC5, 0xC6, 0xC7, 0xC8, 0xC9, 0xCA, 0xCB, 0xCC, 0xCD, 0xCE, 0xCF,
  0xD0, 0xD1, 0xD2, 0xD3, 0xD4, 0xD5, 0xD6, 0xD7, 0xD8, 0xD9, 0xDA, 0xDB, 0xDC, 0xDD, 0xDE, 0xDF,
  0xC0, 0xC1, 0xC2, 0xC3, 0xC4, 0xC5, 0xC6, 0xC7, 0xC8, 0xC9, 0xCA, 0xCB, 0xCC, 0xCD, 0xCE, 0xCF,
  0xD0, 0xD1, 0xD2, 0xD3, 0xD4, 0xD5, 0xD6, 0xF7, 0xD8, 0xD9, 0xDA, 0xDB, 0xDC, 0xDD, 0xDE, 0x9F]

/-- `tbl_lower`. -/
def tblLower : List Nat := [
  0x61, 0x62, 0x63, 0x64, 0x65, 0x66, 0x67, 0x68, 0x69, 0x6A, 0x6B, 0x6C, 0x6D, 0x6E, 0x6F, 0x70,
  0x71, 0x72, 0x73, 0x74, 0x75, 0x76, 0x77, 0x78, 0x79, 0x7A, 0xA1, 0xA2, 0xA3, 0xA5, 0xAC, 0xAF,
  0xE0, 0xE1, 0xE2, 0xE3, 0xE4, 0xE5, 0xE6, 0xE7, 0xE8, 0xE9, 0xEA, 0xEB, 0xEC, 0xED, 0xEE, 0xEF,
  0xF0, 0xF1, 0xF2, 0xF3, 0xF4, 0xF5, 0xF6, 0xF8, 0xF9, 0xFA, 0xFB, 0xFC, 0xFD, 0xFE, 0xFF, 0x101,
  0x103, 0x105, 0x107, 0x109, 0x10B, 0x10D, 0x10F, 0x111, 0x113, 0x115, 0x117, 0x119, 0x11B,
  0x11D, 0x11F, 0x121, 0x123, 0x125, 0x127, 0x129, 0x12B, 0x12D, 0x12F, 0x131, 0x133, 0x135,
  0x137, 0x13A, 0x13C, 0x13E, 0x140, 0x142, 0x144, 0x146, 0x148, 0x14B, 0x14D, 0x14F, 0x151,
  0x153, 0x155, 0x157, 0x159, 0x15B, 0x15D, 0x15F, 0x161, 0x163, 0x165, 0x167, 0x169, 0x16B,
  0x16D, 0x16F, 0x171, 0x173, 0x175, 0x177, 0x17A, 0x17C, 0x17E, 0x192, 0x3B1, 0x3B2, 0x3B3,
  0x3B4, 0x3B5, 0x3B6, 0x3B7, 0x3B8, 0x3B9, 0x3BA, 0x3BB, 0x3BC, 0x3BD, 0x3BE, 0x3BF, 0x3C0,
  0x3C1, 0x3C3, 0x3C4, 0x3C5, 0x3C6, 0x3C7, 0x3C8, 0x3C9, 0x3CA, 0x430, 0x431, 0x432, 0x433,
  0x434, 0x435, 0x436, 0x437, 0x438, 0x439, 0x43A, 0x43B, 0x43C, 0x43D, 0x43E, 0x43F, 0x440,
  0x441, 0x442, 0x443, 0x444, 0x445, 0x446, 0x447, 0x448, 0x449, 0x44A, 0x44B, 0x44C, 0x44D,
  0x44E, 0x44F, 0x451, 0x452, 0x453, 0x454, 0x455, 0x456, 0x457, 0x458, 0x459, 0x45A, 0x45B,
  0x45C, 0x45E, 0x45F, 0x2170, 0x2171, 0x2172, 0x2173, 0x2174, 0x2175, 0x2176, 0x2177, 0x2178,
  0x2179, 0x217A, 0x217B, 0x217C, 0x217D, 0x217E, 0x217F, 0xFF41, 0xFF42, 0xFF43, 0xFF44, 0xFF45,
  0xFF46, 0xFF47, 0xFF48, 0xFF49, 0xFF4A, 0xFF4B, 0xFF4C, 0xFF4D, 0xFF4E, 0xFF4F, 0xFF50, 0xFF51,
  0xFF52, 0xFF53, 0xFF54, 0xFF55, 0xFF56, 0xFF57, 0xFF58, 0xFF59, 0xFF5A]

/-- `tbl_upper`, which goes with it. -/
def tblUpper : List Nat := [
  0x41, 0x42, 0x43, 0x44, 0x45, 0x46, 0x47, 0x48, 0x49, 0x4A, 0x4B, 0x4C, 0x4D, 0x4E, 0x4F, 0x50,
  0x51, 0x52, 0x53, 0x54, 0x55, 0x56, 0x57, 0x58, 0x59, 0x5A, 0x21, 0xFFE0, 0xFFE1, 0xFFE5,
  0xFFE2, 0xFFE3, 0xC0, 0xC1, 0xC2, 0xC3, 0xC4, 0xC5, 0xC6, 0xC7, 0xC8, 0xC9, 0xCA, 0xCB, 0xCC,
  0xCD, 0xCE, 0xCF, 0xD0, 0xD1, 0xD2, 0xD3, 0xD4, 0xD5, 0xD6, 0xD8, 0xD9, 0xDA, 0xDB, 0xDC, 0xDD,
  0xDE, 0x178, 0x100, 0x102, 0x104, 0x106, 0x108, 0x10A, 0x10C, 0x10E, 0x110, 0x112, 0x114, 0x116,
  0x118, 0x11A, 0x11C, 0x11E, 0x120, 0x122, 0x124, 0x126, 0x128, 0x12A, 0x12C, 0x12E, 0x130,
  0x132, 0x134, 0x136, 0x139, 0x13B, 0x13D, 0x13F, 0x141, 0x143, 0x145, 0x147, 0x14A, 0x14C,
  0x14E, 0x150, 0x152, 0x154, 0x156, 0x158, 0x15A, 0x15C, 0x15E, 0x160, 0x162, 0x164, 0x166,
  0x168, 0x16A, 0x16C, 0x16E, 0x170, 0x172, 0x174, 0x176, 0x179, 0x17B, 0x17D, 0x191, 0x391,
  0x392, 0x393, 0x394, 0x395, 0x396, 0x397, 0x398, 0x399, 0x39A, 0x39B, 0x39C, 0x39D, 0x39E,
  0x39F, 0x3A0, 0x3A1, 0x3A3, 0x3A4, 0x3A5, 0x3A6, 0x3A7, 0x3A8, 0x3A9, 0x3AA, 0x410, 0x411,
  0x412, 0x413, 0x414, 0x415, 0x416, 0x417, 0x418, 0x419, 0x41A, 0x41B, 0x41C, 0x41D, 0x41E,
  0x41F, 0x420, 0x421, 0x422, 0x423, 0x424, 0x425, 0x426, 0x427, 0x428, 0x429, 0x42A, 0x42B,
  0x42C, 0x42D, 0x42E, 0x42F, 0x401, 0x402, 0x403, 0x404, 0x405, 0x406, 0x407, 0x408, 0x409,
  0x40A, 0x40B, 0x40C, 0x40E, 0x40F, 0x2160, 0x2161, 0x2162, 0x2163, 0x2164, 0x2165, 0x2166,
  0x2167, 0x2168, 0x2169, 0x216A, 0x216B, 0x216C, 0x216D, 0x216E, 0x216F, 0xFF21, 0xFF22, 0xFF23,
  0xFF24, 0xFF25, 0xFF26, 0xFF27, 0xFF28, 0xFF29, 0xFF2A, 0xFF2B, 0xFF2C, 0xFF2D, 0xFF2E, 0xFF2F,
  0xFF30, 0xFF31, 0xFF32, 0xFF33, 0xFF34, 0xFF35, 0xFF36, 0xFF37, 0xFF38, 0xFF39, 0xFF3A]

/-- `ff_convert` from the code page to Unicode. Zero is an error. -/
def oemToUnicode (src : Nat) : Nat :=
  if src < 0x80 then src else if src ≥ 0x100 then 0 else tbl.getD (src - 0x80) 0

/-- `ff_convert` from Unicode to the code page. The index behind the table wraps around to zero. -/
def unicodeToOem (src : Nat) : Nat :=
  if src < 0x80 then src else (tbl.idxOf src + 0x80) % 0x100

/-- `ff_wtoupper`. -/
def ffWtoupper (chr : Nat) : Nat := tblUpper.getD (tblLower.idxOf chr) chr

/-! ### The name of a segment -/

/-- `_MAX_LFN`. -/
def maxLfn : Nat := 255

/-- A name as `create_name` leaves it: the short name of 11 bytes, the long name, and the flags
`NS_LOSS`, `NS_LFN`, `NS_BODY` and `NS_EXT`. -/
structure Name where
  fn : List UInt8
  lfn : List Nat
  loss : Bool
  long : Bool
  body : Bool
  ext : Bool
  deriving DecidableEq, Repr

/-- The characters that a long name must not have, `"*:<>?|` and 0x7F. -/
def illegalLfn : List Nat := [0x22, 0x2a, 0x3a, 0x3c, 0x3e, 0x3f, 0x7c, 0x7f]

/-- The characters that a short name must not have besides, `+,;[=]`. -/
def illegalSfn : List Nat := [0x2b, 0x2c, 0x3b, 0x5b, 0x3d, 0x5d]

/-- A space or a dot. -/
def blankOrDot (w : Nat) : Bool := w = 0x20 || w = 0x2e

/-- The long name of a segment, unless it has too many characters or one that is invalid or illegal.
Trailing spaces and dots are stripped, and something must remain. -/
def createLfn (segment : List UInt8) : Option (List Nat) :=
  let lfn := segment.map fun b => oemToUnicode b.toNat
  let stripped := (lfn.reverse.dropWhile blankOrDot).reverse
  if lfn.length > maxLfn ∨ (lfn.any fun w => w = 0 || w ∈ illegalLfn) ∨ stripped = [] then none
  else some stripped

/-- The short name in the making: its bytes, where the next goes and where the section ends, the
cases of the letters so far, and whether something was lost and a long name is needed. -/
structure SfnState where
  fn : List UInt8
  i : Nat
  ni : Nat
  b : Nat
  loss : Bool
  long : Bool

def SfnState.lossy (state : SfnState) : SfnState := { state with loss := true, long := true }

/-- Put a character into the short name. -/
def SfnState.put (state : SfnState) (w : Nat) : SfnState :=
  let state := if w ≥ 0x80 then { state with long := true } else state
  -- a character that the code page does not have becomes zero
  let w :=
    if w ≥ 0x80 then
      if unicodeToOem w = 0 then 0 else excvt.getD (unicodeToOem w - 0x80) 0
    else w
  let state := if w = 0 ∨ w ∈ illegalSfn then state.lossy else state
  let upper := 0x41 ≤ w ∧ w ≤ 0x5a
  let lower := 0x61 ≤ w ∧ w ≤ 0x7a
  let byte := if w = 0 ∨ w ∈ illegalSfn then 0x5f else if lower then w - 0x20 else w
  { state with
    fn := state.fn.set state.i (UInt8.ofNat byte)
    i := state.i + 1
    b := if upper then state.b ||| 2 else if lower then state.b ||| 1 else state.b }

/-- The loop of `create_name` over the long name from `si` on, where `di` is behind the last dot.
Every turn goes on in the long name, so its length is enough fuel. -/
def createSfn (lfn : List Nat) (di : Nat) : (fuel si : Nat) → SfnState → SfnState
  | 0, _, state => state
  | fuel + 1, si, state =>
    match lfn[si]? with
    | none => state
    | some w =>
      let si := si + 1
      if w = 0x20 ∨ (w = 0x2e ∧ si ≠ di) then createSfn lfn di fuel si state.lossy
      else if state.i ≥ state.ni ∨ si = di then
        if state.ni = 11 then state.lossy
        else
          let state := if si ≠ di then state.lossy else state
          if si > di then state
          else createSfn lfn di fuel di { state with i := 8, ni := 11, b := state.b <<< 2 }
      else createSfn lfn di fuel si (state.put w)

/-- `create_name`, for a segment of a path. Nothing is an invalid name. -/
def createName (segment : List UInt8) : Option Name :=
  match createLfn segment with
  | none => none
  | some lfn =>
    let si := (lfn.takeWhile blankOrDot).length
    let di := lfn.length - (lfn.reverse.takeWhile (· ≠ 0x2e)).length
    let start : SfnState := ⟨List.replicate 11 0x20, 0, 8, 0, si ≠ 0, si ≠ 0⟩
    let state := createSfn lfn di (lfn.length + 1) si start
    let fn := if state.fn.head? = some 0xe5 then state.fn.set 0 0x05 else state.fn
    let b := if state.ni = 8 then state.b <<< 2 else state.b
    -- composite capitals need a long name, simple ones are flagged
    let long := state.long || b &&& 0x0c == 0x0c || b &&& 0x03 == 0x03
    some ⟨fn, lfn, state.loss, long, !long && b &&& 0x0c == 0x04, !long && b &&& 0x03 == 0x01⟩

theorem createLfn_bounds {segment : List UInt8} {lfn : List Nat}
    (created : createLfn segment = some lfn) : lfn ≠ [] ∧ lfn.length ≤ segment.length := by
  rw [createLfn] at created
  split_ifs at created with invalid
  obtain rfl := Option.some.inj created
  refine ⟨fun empty => invalid (.inr (.inr empty)), ?_⟩
  rw [List.length_reverse]
  refine (List.dropWhile_suffix _).length_le.trans ?_
  rw [List.length_reverse, List.length_map]

theorem put_long {state : SfnState} {w : Nat} (kept : state.loss = true → state.long = true) :
    (state.put w).loss = true → (state.put w).long = true := by
  rw [SfnState.put]
  dsimp only
  split_ifs
  all_goals first | exact fun _ => rfl | exact kept

theorem length_put (state : SfnState) (w : Nat) :
    (state.put w).fn.length = state.fn.length := by
  rw [SfnState.put]
  dsimp only
  split_ifs <;> exact List.length_set

/-- What is lost makes a long name necessary. -/
theorem createSfn_long {lfn : List Nat} {di fuel si : Nat} {state : SfnState}
    (kept : state.loss = true → state.long = true) :
    (createSfn lfn di fuel si state).loss = true →
    (createSfn lfn di fuel si state).long = true := by
  induction fuel generalizing si state with
  | zero => exact kept
  | succ fuel inductionHypothesis =>
    rw [createSfn]
    split
    · exact kept
    · dsimp only
      split_ifs
      all_goals first
        | exact kept
        | exact fun _ => rfl
        | exact inductionHypothesis kept
        | exact inductionHypothesis fun _ => rfl
        | exact inductionHypothesis (put_long kept)

/-- The characters are put in the place of others. -/
theorem length_createSfn {lfn : List Nat} {di fuel si : Nat} {state : SfnState} :
    (createSfn lfn di fuel si state).fn.length = state.fn.length := by
  induction fuel generalizing si state with
  | zero => rfl
  | succ fuel inductionHypothesis =>
    rw [createSfn]
    split
    · rfl
    · dsimp only
      split_ifs
      all_goals first
        | rfl
        | exact inductionHypothesis
        | exact inductionHypothesis.trans (length_put _ _)

/-- A short name has eleven bytes. -/
theorem length_fn {segment : List UInt8} {name : Name} (created : createName segment = some name) :
    name.fn.length = 11 := by
  rw [createName] at created
  split at created
  · exact absurd created nofun
  · obtain rfl := Option.some.inj created
    dsimp only
    split_ifs
    · rw [List.length_set, length_createSfn]
      rfl
    · rw [length_createSfn]
      rfl

theorem createName_spec {segment : List UInt8} {name : Name}
    (created : createName segment = some name) :
    (name.loss = true → name.long = true) ∧ name.lfn ≠ [] ∧
      name.lfn.length ≤ segment.length := by
  rw [createName] at created
  split at created
  · exact absurd created nofun
  · rename_i lfn long
    obtain rfl := Option.some.inj created
    refine ⟨fun loss => ?_, createLfn_bounds long⟩
    dsimp only at loss ⊢
    rw [createSfn_long id loss]
    rfl

/-! ### Numbered names -/

/-- The number of a name with many collisions, from the number of the try and the long name. -/
def hashNumber (num : Nat) (lfn : List Nat) : Nat :=
  lfn.foldl (fun num w => (num / 2 + num * 2 ^ 15 + w) % 2 ^ 16) num

/-- The decimal digits of a number. -/
def digits (num : Nat) : List UInt8 :=
  (Nat.toDigits 10 num).map fun c => UInt8.ofNat c.toNat

/-- `gen_numname`. -/
def genNumname (src : List UInt8) (lfn : List Nat) (num : Nat) : List UInt8 :=
  let ns := 0x7e :: digits (if num > 5 then hashNumber num lfn else num)
  let body := (src.take (8 - ns.length)).takeWhile (· ≠ 0x20) ++ ns
  body ++ List.replicate (8 - body.length) 0x20 ++ src.drop 8

/-- The number is one of sixteen bits. -/
theorem hashNumber_lt {num : Nat} (lfn : List Nat) (small : num < 2 ^ 16) :
    hashNumber num lfn < 2 ^ 16 := by
  rw [hashNumber]
  induction lfn generalizing num with
  | nil => exact small
  | cons w lfn inductionHypothesis =>
    exact inductionHypothesis (Nat.mod_lt _ (Nat.two_pow_pos 16))

/-- A numbered name has eleven bytes too. -/
theorem length_genNumname {src : List UInt8} {num : Nat} (lfn : List Nat) (eleven : src.length = 11)
    (small : num < 2 ^ 16) : (genNumname src lfn num).length = 11 := by
  have few : (digits (if num > 5 then hashNumber num lfn else num)).length ≤ 5 := by
    rw [digits, List.length_map, Nat.length_toDigits_le_iff (by decide) (by decide)]
    split_ifs
    · exact (hashNumber_lt lfn small).trans (by decide)
    · exact small.trans (by decide)
  rw [genNumname]
  generalize digits (if num > 5 then hashNumber num lfn else num) = number at few
  have front := (List.takeWhile_prefix (p := fun b : UInt8 => decide (b ≠ 0x20))
    (l := src.take (8 - (0x7e :: number).length))).length_le
  rw [List.length_take] at front
  simp only [List.length_append, List.length_cons, List.length_replicate, List.length_drop]
    at front ⊢
  omega

end Hdfmonkey
