import FleetEstimate.Real64.Lemmas
import FleetEstimate.WorkResult

/-!
# The bytes of a message

Every message travels as bytes that tell where it ends: whoever reads on behind it finds
what was written behind it. So two messages of a kind with which the same bytes begin are
the same message.
-/

namespace FleetEstimate

variable {x y : Bytes}

theorem toNat_lt_of_le_maxPayload {n : ℕ} (h : n ≤ maxPayload) : n < 256 ^ 8 := by
  have hmax : maxPayload < 256 ^ 8 := by decide
  omega

/-- A number is below the power that its bytes make room for. -/
theorem Bytes.ofBigEndian_lt (bs : Bytes) : ofBigEndian bs < 256 ^ bs.length := by
  have hmod := ofBigEndian_bigEndian bs.length (ofBigEndian bs)
  rw [bigEndian_ofBigEndian] at hmod
  rw [hmod]
  exact Nat.mod_lt _ (Nat.pow_pos (by decide))

/-- A length below the limit is read as it was written. -/
theorem bigEndian_append_inj {m n : ℕ} (hm : m ≤ maxPayload) (hn : n ≤ maxPayload)
    (h : Bytes.bigEndian 8 m ++ x = Bytes.bigEndian 8 n ++ y) : m = n ∧ x = y := by
  have hlen : (Bytes.bigEndian 8 m).length = (Bytes.bigEndian 8 n).length := by
    rw [Bytes.length_bigEndian, Bytes.length_bigEndian]
  rcases List.append_inj h hlen with ⟨hbytes, hrest⟩
  refine ⟨?_, hrest⟩
  have hnum := congrArg Bytes.ofBigEndian hbytes
  rw [Bytes.ofBigEndian_bigEndian, Bytes.ofBigEndian_bigEndian,
    Nat.mod_eq_of_lt (toNat_lt_of_le_maxPayload hm),
    Nat.mod_eq_of_lt (toNat_lt_of_le_maxPayload hn)] at hnum
  exact hnum

/-! ## Texts -/

namespace Text

theorem length_toBytes (t : String) : (toBytes t).length = t.utf8ByteSize := rfl

theorem toBytes_injective : Function.Injective toBytes := by
  intro t u h
  apply String.toByteArray_inj.1
  apply ByteArray.ext
  exact Array.toList_inj.1 h

/-- A text that bytes hold has these bytes. -/
theorem toBytes_of_ofBytes {bs : Bytes} {t : String} (h : ofBytes bs = .ok t) : toBytes t = bs := by
  unfold ofBytes String.fromUTF8? at h
  split at h
  · rename_i text htext
    cases h
    split at htext
    · cases htext
      rfl
    · cases htext
  · cases h

/-- A text is read back from its bytes. -/
theorem ofBytes_toBytes (t : String) : ofBytes (toBytes t) = .ok t := by
  have hbytes : (⟨(toBytes t).toArray⟩ : ByteArray) = t.toUTF8 := by
    unfold toBytes
    rw [Array.toArray_toList]
  have hvalid : t.toUTF8.IsValidUTF8 := t.isValidUTF8
  unfold ofBytes String.fromUTF8?
  rw [hbytes, dif_pos hvalid]
  rfl

theorem toBytes_ofList (cs : List Char) :
    toBytes (String.ofList cs) = cs.flatMap String.utf8EncodeChar := by
  unfold toBytes
  rw [String.toUTF8_eq_toByteArray, String.toByteArray_ofList]
  unfold List.utf8Encode
  simp

/-- The bytes of a text behind their number. -/
def frame (t : String) : Bytes := Bytes.bigEndian 8 t.utf8ByteSize ++ toBytes t

theorem frame_append_inj {t u : String} (ht : t.utf8ByteSize ≤ maxPayload)
    (hu : u.utf8ByteSize ≤ maxPayload) (h : frame t ++ x = frame u ++ y) : t = u ∧ x = y := by
  unfold frame at h
  rw [List.append_assoc, List.append_assoc] at h
  rcases bigEndian_append_inj ht hu h with ⟨hsize, hrest⟩
  rcases List.append_inj hrest hsize with ⟨hbytes, hxy⟩
  exact ⟨toBytes_injective hbytes, hxy⟩

end Text

/-! ## Numbers -/

namespace Real64

theorem toBytes_append_inj {a b : Real64} (h : a.toBytes ++ x = b.toBytes ++ y) :
    a = b ∧ x = y := by
  have hlen : a.toBytes.length = b.toBytes.length := by rw [length_toBytes, length_toBytes]
  rcases List.append_inj h hlen with ⟨hbytes, hxy⟩
  refine ⟨?_, hxy⟩
  rw [← ofBytes_toBytes a, hbytes, ofBytes_toBytes]

/-- The bytes of the elements of a vector behind their number. -/
def frame (xs : List Real64) : Bytes := Bytes.bigEndian 8 xs.length ++ xs.flatMap toBytes

theorem flatMap_append_inj {as bs : List Real64} (hlen : as.length = bs.length)
    (h : as.flatMap toBytes ++ x = bs.flatMap toBytes ++ y) : as = bs ∧ x = y := by
  induction as generalizing bs with
  | nil =>
    obtain rfl : bs = [] := List.length_eq_zero_iff.1 hlen.symm
    exact ⟨rfl, h⟩
  | cons a as ih =>
    cases bs with
    | nil => cases hlen
    | cons b bs =>
      rw [List.flatMap_cons, List.flatMap_cons, List.append_assoc, List.append_assoc] at h
      -- every number takes eight bytes, so the first two are equal
      rcases toBytes_append_inj h with ⟨hab, hrest⟩
      rcases ih (Nat.succ.inj hlen) hrest with ⟨hall, hxy⟩
      exact ⟨by rw [hab, hall], hxy⟩

theorem frame_append_inj {as bs : List Real64} (ha : 8 * as.length ≤ maxPayload)
    (hb : 8 * bs.length ≤ maxPayload) (h : frame as ++ x = frame bs ++ y) : as = bs ∧ x = y := by
  unfold frame at h
  rw [List.append_assoc, List.append_assoc] at h
  rcases bigEndian_append_inj (by omega) (by omega) h with ⟨hlen, hrest⟩
  exact flatMap_append_inj hlen hrest

theorem length_flatMap_toBytes (xs : List Real64) :
    (xs.flatMap toBytes).length = 8 * xs.length := by
  induction xs with
  | nil => rfl
  | cons x xs ih =>
    rw [List.flatMap_cons, List.length_append, length_toBytes, ih, List.length_cons]
    omega

theorem realsOf_flatMap (xs : List Real64) : Link.realsOf xs.length (xs.flatMap toBytes) = xs := by
  induction xs with
  | nil => rfl
  | cons x xs ih =>
    rw [List.flatMap_cons, List.length_cons, Link.realsOf, List.take_left' (length_toBytes x),
      List.drop_left' (length_toBytes x), ofBytes_toBytes, ih]

/-- Eight bytes each give the numbers whose bytes they are. -/
theorem flatMap_realsOf {n : ℕ} {bs : Bytes} (h : bs.length = 8 * n) :
    (Link.realsOf n bs).length = n ∧ (Link.realsOf n bs).flatMap toBytes = bs := by
  -- eight bytes at a time
  induction n generalizing bs with
  | zero =>
    obtain rfl : bs = [] := List.length_eq_zero_iff.1 h
    exact ⟨rfl, rfl⟩
  | succ n ih =>
    have hdrop : (bs.drop 8).length = 8 * n := by
      rw [List.length_drop]
      omega
    have htake : (bs.take 8).length = 8 := by
      rw [List.length_take]
      omega
    rcases ih hdrop with ⟨hlen, hall⟩
    rw [Link.realsOf, List.length_cons, List.flatMap_cons, hlen, hall, toBytes_ofBytes htake,
      List.take_append_drop]
    exact ⟨rfl, rfl⟩

end Real64

theorem littleEndian_append_inj {m n : UInt64}
    (h : Bytes.littleEndian 8 m.toNat ++ x = Bytes.littleEndian 8 n.toNat ++ y) :
    m = n ∧ x = y := by
  have hlen : (Bytes.littleEndian 8 m.toNat).length = (Bytes.littleEndian 8 n.toNat).length := by
    rw [Bytes.length_littleEndian, Bytes.length_littleEndian]
  rcases List.append_inj h hlen with ⟨hbytes, hxy⟩
  refine ⟨UInt64.toNat_inj.1 ?_, hxy⟩
  have hnum := congrArg Bytes.ofLittleEndian hbytes
  rw [Bytes.ofLittleEndian_littleEndian, Bytes.ofLittleEndian_littleEndian] at hnum
  have hm : m.toNat < 256 ^ 8 := m.toNat_lt
  have hn : n.toNat < 256 ^ 8 := n.toNat_lt
  rwa [Nat.mod_eq_of_lt hm, Nat.mod_eq_of_lt hn] at hnum

/-! ## Tags -/

namespace Tag

theorem length_toBytes (t : Tag) : t.toBytes.length = 4 := Bytes.length_bigEndian _ _

theorem toBytes_append_inj {t u : Tag} (h : t.toBytes ++ x = u.toBytes ++ y) : t = u ∧ x = y := by
  rcases List.append_inj h (by rw [length_toBytes, length_toBytes]) with ⟨hbytes, hxy⟩
  refine ⟨?_, hxy⟩
  have hback := ofBytes_toBytes t
  rw [hbytes, ofBytes_toBytes] at hback
  exact (Except.ok.inj hback).symm

theorem value_of_ofValue {n : UInt32} {t : Tag} (h : ofValue n = .ok t) : t.value = n := by
  unfold ofValue at h
  split_ifs at h with hname hbusy hwork hdie
  · cases h
    exact hname.symm
  · cases h
    exact hbusy.symm
  · cases h
    exact hwork.symm
  · cases h
    exact hdie.symm

/-- Four bytes that are read as a tag are its bytes. -/
theorem toBytes_of_ofBytes {bs : Bytes} {t : Tag} (hlen : bs.length = 4) (h : ofBytes bs = .ok t) :
    t.toBytes = bs := by
  have hback := Bytes.bigEndian_ofBigEndian bs
  rw [hlen] at hback
  have hlt : Bytes.ofBigEndian bs < 2 ^ 32 := by
    have hlt := Bytes.ofBigEndian_lt bs
    rwa [hlen] at hlt
  rw [toBytes, value_of_ofValue h, UInt32.toNat_ofNat_of_lt' hlt, hback]

end Tag

/-! ## Digests -/

namespace Bytes

theorem utf8EncodeChar_hexDigit {n : ℕ} (h : n < 16) :
    ∃ digit, String.utf8EncodeChar (hexDigit n) = [digit] ∧
      hexValue? digit = some (UInt8.ofNat n) := by
  interval_cases n <;> exact ⟨_, rfl, rfl⟩

/-- Bytes are read back from their digits. -/
theorem ofHexDigits_toHex (bs : Bytes) :
    (Text.toBytes (toHex bs)).length = 2 * bs.length ∧
      ofHexDigits (Text.toBytes (toHex bs)) = .ok bs := by
  unfold toHex
  rw [Text.toBytes_ofList, List.flatMap_assoc]
  induction bs with
  | nil => exact ⟨rfl, rfl⟩
  | cons b bs ih =>
    have hb := b.toNat_lt
    rcases utf8EncodeChar_hexDigit (show b.toNat / 16 < 16 by omega) with ⟨high, hhigh, hvalue⟩
    rcases utf8EncodeChar_hexDigit (show b.toNat % 16 < 16 by omega) with ⟨low, hlow, hvalue'⟩
    rcases ih with ⟨hlen, hread⟩
    -- a byte is sixteen times its first digit and its second
    have hbyte : UInt8.ofNat (b.toNat / 16) * 16 + UInt8.ofNat (b.toNat % 16) = b := by
      apply UInt8.toNat_inj.1
      simp
      omega
    rw [List.flatMap_cons, List.flatMap_cons, List.flatMap_cons, List.flatMap_nil, hhigh, hlow]
    constructor
    · simp only [List.length_append, List.length_cons, List.length_nil, hlen]
      omega
    · simp only [List.cons_append, List.nil_append, ofHexDigits, hvalue, hvalue', hread]
      rw [Except.map, hbyte]

end Bytes

/-- A digest is read back from its text. -/
theorem Digest.ofHex_toHex (d : Digest) : ofHex d.toHex = .ok d := by
  rcases Bytes.ofHexDigits_toHex d.bytes.toList with ⟨hlen, hread⟩
  have hall : (Text.toBytes d.toHex).length = 64 := by
    rw [toHex, hlen, Vector.length_toList]
  have hsize : d.bytes.toList.toArray.size = 32 := by simp
  have hsame : (⟨d.bytes.toList.toArray, hsize⟩ : Vector UInt8 32) = d.bytes :=
    Vector.toArray_inj.1 (Array.toArray_toList)
  unfold ofHex
  rw [if_pos hall, toHex, hread]
  dsimp only
  rw [dif_pos hsize, hsame]

/-! ## Work results -/

namespace WorkResult

/-- The bytes of a work result. -/
def encode (r : WorkResult) : Bytes :=
  Text.frame r.digest ++ (r.parameter.toBytes ++ (Real64.frame r.batch.sum ++
    (Real64.frame r.batch.sumSq ++ Bytes.littleEndian 8 r.batch.samples.toNat)))

/-- No part of a result is longer than a message may be. -/
structure Travels (r : WorkResult) : Prop where
  digest : r.digest.utf8ByteSize ≤ maxPayload
  sum : 8 * r.batch.sum.length ≤ maxPayload
  sumSq : 8 * r.batch.sumSq.length ≤ maxPayload

instance (r : WorkResult) : Decidable r.Travels :=
  decidable_of_iff (r.digest.utf8ByteSize ≤ maxPayload ∧ 8 * r.batch.sum.length ≤ maxPayload ∧
    8 * r.batch.sumSq.length ≤ maxPayload)
    ⟨fun h => ⟨h.1, h.2.1, h.2.2⟩, fun h => ⟨h.digest, h.sum, h.sumSq⟩⟩

theorem encode_append_inj {r r' : WorkResult} (hr : r.Travels) (hr' : r'.Travels)
    (h : r.encode ++ x = r'.encode ++ y) : r = r' ∧ x = y := by
  unfold encode at h
  simp only [List.append_assoc] at h
  -- part by part: each tells where it ends
  rcases Text.frame_append_inj hr.digest hr'.digest h with ⟨hdigest, h⟩
  rcases Real64.toBytes_append_inj h with ⟨hparameter, h⟩
  rcases Real64.frame_append_inj hr.sum hr'.sum h with ⟨hsum, h⟩
  rcases Real64.frame_append_inj hr.sumSq hr'.sumSq h with ⟨hsumSq, h⟩
  rcases littleEndian_append_inj h with ⟨hsamples, hxy⟩
  refine ⟨?_, hxy⟩
  rcases r with ⟨_, _, _, _, _⟩
  rcases r' with ⟨_, _, _, _, _⟩
  cases hdigest
  cases hparameter
  cases hsum
  cases hsumSq
  cases hsamples
  rfl

theorem encode_ne_nil (r : WorkResult) : r.encode ≠ [] := by
  intro h
  have hlen := congrArg List.length h
  rw [encode, List.length_append, Text.frame, List.length_append, Bytes.length_bigEndian] at hlen
  simp at hlen

end WorkResult

end FleetEstimate
