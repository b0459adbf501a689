import Dsline.Core.Burst
import Dsline.Shm.RegionPath
/-!
# The files of the shards

A sharded channel opens one named channel for each shard: the name, with the
shard's index behind it. The file of a named channel is found by the CRC-32
of its name, so different names may share a file. Names of one length that
differ within four bytes do not: shards whose indices have as many digits,
and four at most, each have a file of their own (`shard_files_distinct`).
-/

namespace Dsline

open Path

/-- `_shard_name`. -/
def shardName (name : String) (index : ℕ) : String := name ++ "#shard" ++ toString index

/-! ## The bytes of a name -/

theorem toList_loop_eq (bytes : ByteArray) (i : ℕ) (r : List UInt8) :
    ByteArray.toList.loop bytes i r = r.reverse ++ bytes.data.toList.drop i := by
  induction i, r using ByteArray.toList.loop.induct bytes with
  | case1 i r hlt ih =>
      have hi : i < bytes.data.toList.length := by simpa using hlt
      have hget : bytes.get! i = bytes.data.toList[i] := by
        rw [ByteArray.get!, Array.getElem_toList]
        exact getElem!_pos bytes.data i (by simpa using hlt)
      rw [ByteArray.toList.loop, if_pos hlt, ih, List.drop_eq_getElem_cons hi, hget]
      simp
  | case2 i r hge =>
      have hle : bytes.data.toList.length ≤ i := by simpa using hge
      rw [ByteArray.toList.loop, if_neg hge, List.drop_eq_nil_of_le hle, List.append_nil]

theorem nameBytes_eq (name : String) : nameBytes name = name.toByteArray.data.toList := by
  rw [nameBytes, String.toUTF8_eq_toByteArray, ByteArray.toList, toList_loop_eq]
  rfl

theorem nameBytes_append (name name' : String) :
    nameBytes (name ++ name') = nameBytes name ++ nameBytes name' := by
  rw [nameBytes_eq, nameBytes_eq, nameBytes_eq, String.toByteArray_append, ByteArray.data_append,
    Array.toList_append]

theorem nameBytes_inj {name name' : String} (h : nameBytes name = nameBytes name') :
    name = name' := by
  rw [nameBytes_eq, nameBytes_eq] at h
  exact String.toByteArray_inj.1 (ByteArray.ext (Array.toList_inj.1 h))

theorem length_toList_utf8Encode : ∀ {text : Text}, (∀ c ∈ text, c.utf8Size = 1) →
    text.utf8Encode.data.toList.length = text.length := by
  intro text
  induction text with
  | nil => exact fun _ => rfl
  | cons c text ih =>
      intro hall
      have hc : [c].utf8Encode.data.toList.length = 1 := by
        rw [List.utf8Encode_singleton, List.data_toByteArray, List.toList_toArray,
          String.length_utf8EncodeChar]
        exact hall c List.mem_cons_self
      rw [← List.singleton_append, List.utf8Encode_append, ByteArray.data_append,
        Array.toList_append, List.length_append, List.length_append, hc,
        ih fun d hd => hall d (List.mem_cons_of_mem c hd)]
      rfl

/-- Text of one byte to a character takes as many bytes as characters. -/
theorem length_nameBytes {name : String} (h : ∀ c ∈ name.toList, c.utf8Size = 1) :
    (nameBytes name).length = name.length := by
  rw [nameBytes_eq, ← String.utf8Encode_toList, length_toList_utf8Encode h, String.length_toList]

/-! ## The digits of an index -/

theorem toString_inj {i j : ℕ} (h : toString i = toString j) : i = j := by
  have hdigits : Nat.toDigits 10 i = Nat.toDigits 10 j := by
    rw [← Nat.toList_repr, ← Nat.toList_repr]
    exact congrArg String.toList h
  rw [← Nat.ofDigitChars_ten_toDigits (n := i), hdigits, Nat.ofDigitChars_ten_toDigits]

theorem utf8Size_of_isDigit {c : Char} (h : c.isDigit = true) : c.utf8Size = 1 := by
  have hc : c.val ≤ 57 := by
    have hrange : c.val ≥ '0'.val ∧ c.val ≤ '9'.val := by simpa [Char.isDigit] using h
    exact hrange.2
  rw [Char.utf8Size, if_pos (UInt32.le_trans hc (by decide))]

theorem length_nameBytes_toString (i : ℕ) :
    (nameBytes (toString i)).length = (toString i).length := by
  refine length_nameBytes fun c hc => utf8Size_of_isDigit ?_
  have hmem : c ∈ Nat.toDigits 10 i := by
    rw [← Nat.toList_repr]
    exact hc
  exact Nat.isDigit_of_mem_toDigits (by decide) (by decide) hmem

/-! ## The name of a file says the digest -/

/-- The number a hexadecimal digit stands for. -/
def hexValue (c : Char) : ℕ := (List.range 16).findIdx fun d => Nat.digitChar d == c

theorem hexValue_digitChar : ∀ d < 16, hexValue (Nat.digitChar d) = d := by decide

theorem map_hexValue_digits (n : ℕ) :
    ((Nat.digits 16 n).map Nat.digitChar).map hexValue = Nat.digits 16 n := by
  rw [List.map_map]
  refine (List.map_congr_left fun d hd => ?_).trans (List.map_id _)
  exact hexValue_digitChar d (Nat.digits_lt_base (by decide) hd)

theorem hex8_inj {n m : ℕ} (h : hex8 n = hex8 m) : n = m := by
  have hread : ∀ k, Nat.ofDigits 16 ((hex8 k).reverse.map hexValue) = k := by
    intro k
    rw [hex8, List.reverse_append, List.map_append, ← List.map_reverse, List.reverse_reverse,
      map_hexValue_digits, List.reverse_replicate, List.map_replicate,
      show hexValue '0' = 0 from rfl, Nat.ofDigits_append_replicate_zero, Nat.ofDigits_digits]
  rw [← hread n, h, hread]

theorem regionFileName_inj {digest digest' : ℕ}
    (h : regionFileName digest = regionFileName digest') : digest = digest' := by
  rw [regionFileName, regionFileName, List.append_left_inj, List.append_right_inj] at h
  exact hex8_inj h

/-! ## The files of two shards -/

variable [Checksum] {Node : Type} {fs : FileSystem Node}

theorem shmRegionPath_eq_iff (env : Environment fs) (name name' : String) :
    shmRegionPath env name = shmRegionPath env name'
      ↔ checksum32 (nameBytes name) = checksum32 (nameBytes name') := by
  refine ⟨fun h => ?_, fun h => by rw [shmRegionPath, shmRegionPath, h]⟩
  exact UInt32.toNat_inj.1 (regionFileName_inj
    (join_inj (isName_regionFileName _) (isName_regionFileName _) h))

omit [Checksum] in
theorem regionPath_eq_iff (env : Environment fs) (name name' : String) :
    regionPath env name = regionPath env name'
      ↔ crc32 (nameBytes name) = crc32 (nameBytes name') := by
  refine ⟨fun h => ?_, fun h => by rw [regionPath, regionPath, checksum32Py_eq, checksum32Py_eq, h]⟩
  have hdigest := regionFileName_inj
    (join_inj (isName_regionFileName _) (isName_regionFileName _) h)
  rw [checksum32Py_eq, checksum32Py_eq] at hdigest
  exact UInt32.toNat_inj.1 hdigest

omit [Checksum] in
/-- The names of two shards differ in a row of as many bytes as an index has
digits. -/
theorem crc32_shardName_ne (name : String) {i j : ℕ} (hne : i ≠ j) (hi : i < 10 ^ 4)
    (hdigits : (toString i).length = (toString j).length) :
    crc32 (nameBytes (shardName name i)) ≠ crc32 (nameBytes (shardName name j)) := by
  have hsplit : ∀ k, nameBytes (shardName name k)
      = nameBytes (name ++ "#shard") ++ nameBytes (toString k) ++ [] := by
    intro k
    rw [shardName, nameBytes_append, List.append_nil]
  have hlen : (nameBytes (toString i)).length ≤ 4 := by
    rw [length_nameBytes_toString]
    exact (Nat.length_repr_le_iff (by decide)).2 hi
  rw [hsplit, hsplit]
  refine Burst.crc32_ne (burst_bytes ?_ hlen fun h => hne (toString_inj (nameBytes_inj h)))
  rw [length_nameBytes_toString, length_nameBytes_toString, hdigits]

/-- **Shards whose indices have equally many digits, and four at most, have
files of their own**: under every name and in every environment, to the
channel and to the command line. -/
theorem shard_files_distinct (hcrc : IsCrc32) (env : Environment fs) (name : String) {i j : ℕ}
    (hne : i ≠ j) (hi : i < 10 ^ 4) (hdigits : (toString i).length = (toString j).length) :
    shmRegionPath env (shardName name i) ≠ shmRegionPath env (shardName name j) ∧
      regionPath env (shardName name i) ≠ regionPath env (shardName name j) := by
  have hdiffer := crc32_shardName_ne name hne hi hdigits
  refine ⟨fun h => ?_, fun h => hdiffer ((regionPath_eq_iff env _ _).1 h)⟩
  rw [shmRegionPath_eq_iff, hcrc, hcrc] at h
  exact hdiffer h

omit [Checksum] in
/-- Shards 12 and 27 of `events`. -/
theorem shard_files_distinct_events :
    @shmRegionPath _ crc32Checksum _ (homeEnvironment none none) (shardName "events" 12)
        ≠ @shmRegionPath _ crc32Checksum _ (homeEnvironment none none) (shardName "events" 27) ∧
      regionPath (homeEnvironment none none) (shardName "events" 12)
        ≠ regionPath (homeEnvironment none none) (shardName "events" 27) :=
  @shard_files_distinct crc32Checksum _ _ isCrc32 (homeEnvironment none none) "events" _ _
    (by decide) (by decide) (by decide)

end Dsline
