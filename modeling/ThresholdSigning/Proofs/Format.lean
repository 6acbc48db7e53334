import ThresholdSigning.Bytes.Value
import ThresholdSigning.Wire.Format

namespace ThresholdSigning

theorem takeBytes_append {count : Nat} {front : ByteArray} (h : front.size = count)
    (rest : ByteArray) : takeBytes count (front ++ rest) = .ok (front, rest) := by
  have hn : ¬ (front ++ rest).size < count := by
    rw [ByteArray.size_append]
    omega
  rw [takeBytes, if_neg hn, ByteArray.extract_append_eq_left h.symm,
    ByteArray.extract_append_eq_right h.symm ByteArray.size_append]

theorem takeBytes_eq_ok {count : Nat} {bytes front rest : ByteArray}
    (h : takeBytes count bytes = .ok (front, rest)) :
    front.size = count ∧ bytes = front ++ rest := by
  unfold takeBytes at h
  split at h
  next => cases h
  next hn =>
    cases h
    constructor
    · rw [ByteArray.size_extract]
      omega
    · rw [← ByteArray.extract_eq_extract_append_extract count (by omega) (by omega),
        ByteArray.extract_zero_size]

namespace Format

variable {α β : Type} {f : Format α} {g : Format β} {fits : α → Prop} {fitsToo : β → Prop}

/-- Values that fit are read back from the front of any bytes, and whatever is read fits and was
written in front of the rest. -/
structure Faithful (f : Format α) (fits : α → Prop) : Prop where
  read_write : ∀ {x : α} (rest : ByteArray), fits x → f.read (f.write x ++ rest) = .ok (x, rest)
  fits_of_read : ∀ {bytes rest : ByteArray} {x : α}, f.read bytes = .ok (x, rest) → fits x
  eq_of_read : ∀ {bytes rest : ByteArray} {x : α},
    f.read bytes = .ok (x, rest) → bytes = f.write x ++ rest

theorem decode_eq_ok_iff_read {bytes : ByteArray} {x : α} :
    f.decode bytes = .ok x ↔ f.read bytes = .ok (x, .empty) := by
  unfold decode
  cases hr : f.read bytes with
  | error fault => simp
  | ok found =>
    obtain ⟨y, rest⟩ := found
    simp only [Except.ok.injEq, Prod.mk.injEq, ← ByteArray.size_eq_zero_iff]
    split
    next hs => simp [hs]
    next hs => simp [hs]

theorem Faithful.decode_eq_ok_iff (hf : f.Faithful fits) {bytes : ByteArray} {x : α} :
    f.decode bytes = .ok x ↔ fits x ∧ f.write x = bytes := by
  rw [decode_eq_ok_iff_read]
  constructor
  · intro h
    have he := hf.eq_of_read h
    rw [ByteArray.append_empty] at he
    exact ⟨hf.fits_of_read h, he.symm⟩
  · rintro ⟨hx, rfl⟩
    have h := hf.read_write .empty hx
    rwa [ByteArray.append_empty] at h

theorem Faithful.write_of_decode (hf : f.Faithful fits) {bytes : ByteArray} {x : α}
    (h : f.decode bytes = .ok x) : f.write x = bytes :=
  (hf.decode_eq_ok_iff.mp h).2

theorem faithful_fixed (width : Nat) : (fixed width).Faithful (· < 256 ^ width) where
  read_write {n} rest hn := by
    have hs : (ByteArray.mk ⟨toLittleEndian width n⟩).size = width := length_toLittleEndian width n
    simp only [fixed, takeBytes_append hs, littleEndian_toLittleEndian, Nat.mod_eq_of_lt hn]
  fits_of_read {bytes rest n} h := by
    simp only [fixed] at h
    split at h
    next => cases h
    next digits left ht =>
      cases h
      rw [← (takeBytes_eq_ok ht).1]
      exact littleEndian_lt digits.data.toList
  eq_of_read {bytes rest n} h := by
    simp only [fixed] at h ⊢
    split at h
    next => cases h
    next digits left ht =>
      cases h
      obtain ⟨hs, he⟩ := takeBytes_eq_ok ht
      have hl : digits.data.toList.length = width := hs
      rw [he, ← hl, toLittleEndian_littleEndian]

theorem faithful_signed32 : signed32.Faithful (fun i => -0x80000000 ≤ i ∧ i < 0x80000000) where
  read_write {i} rest hi := by
    have hn : (i % 0x100000000).toNat < 256 ^ 4 := by omega
    simp only [signed32, (faithful_fixed 4).read_write rest hn, Except.ok.injEq, Prod.mk.injEq,
      and_true]
    split <;> omega
  fits_of_read {bytes rest i} h := by
    simp only [signed32] at h
    split at h
    next => cases h
    next n left hr =>
      have hn : n < 256 ^ 4 := (faithful_fixed 4).fits_of_read hr
      cases h
      split <;> omega
  eq_of_read {bytes rest i} h := by
    simp only [signed32] at h ⊢
    split at h
    next => cases h
    next n left hr =>
      have hn : n < 256 ^ 4 := (faithful_fixed 4).fits_of_read hr
      cases h
      have hi : ((if n < 0x80000000 then (n : Int) else (n : Int) - 0x100000000) %
          0x100000000).toNat = n := by
        split <;> omega
      rw [hi]
      exact (faithful_fixed 4).eq_of_read hr

theorem faithful_flag : flag.Faithful (fun _ => True) where
  read_write {b} rest _ := by
    have ht : takeBytes 1 (flag.write b ++ rest) = .ok (flag.write b, rest) :=
      takeBytes_append rfl rest
    simp only [flag] at ht ⊢
    rw [ht]
    cases b <;> rfl
  fits_of_read _ := trivial
  eq_of_read {bytes rest b} h := by
    simp only [flag] at h ⊢
    split at h
    next => cases h
    next byte left ht =>
      rw [(takeBytes_eq_ok ht).2]
      split at h
      next c hc =>
        have he : byte = ⟨#[c]⟩ := bytes_ext hc
        split at h
        next hz =>
          cases h
          simp [he, hz]
        next =>
          split at h
          next ho =>
            cases h
            simp [he, ho]
          next => cases h
      next => cases h

theorem faithful_word : (fixed 8).Faithful (· < wordLimit) := faithful_fixed 8

theorem faithful_blob : blob.Faithful (·.size < wordLimit) where
  read_write {content} rest hs := by
    simp only [blob, ByteArray.append_assoc, faithful_word.read_write _ hs, takeBytes_append]
  fits_of_read {bytes rest content} h := by
    simp only [blob] at h
    split at h
    next => cases h
    next size left hr =>
      rw [(takeBytes_eq_ok h).1]
      exact faithful_word.fits_of_read hr
  eq_of_read {bytes rest content} h := by
    simp only [blob] at h ⊢
    split at h
    next => cases h
    next size left hr =>
      obtain ⟨hs, he⟩ := takeBytes_eq_ok h
      rw [faithful_word.eq_of_read hr, he, hs, ByteArray.append_assoc]

theorem decodeText_toByteArray (s : String) : decodeText s.toByteArray = .ok s := by
  have hv : s.toByteArray.validateUTF8 = true :=
    ByteArray.validateUTF8_eq_true_iff.mpr s.isValidUTF8
  rw [decodeText, dif_pos hv]

theorem toByteArray_of_decodeText {bytes : ByteArray} {s : String} (h : decodeText bytes = .ok s) :
    s.toByteArray = bytes := by
  unfold decodeText at h
  split at h
  next =>
    cases h
    rfl
  next => split at h <;> cases h

theorem faithful_text : text.Faithful (·.toByteArray.size < wordLimit) where
  read_write {s} rest hs := by
    simp only [text, ByteArray.append_assoc, faithful_word.read_write _ hs, takeBytes_append,
      decodeText_toByteArray]
  fits_of_read {bytes rest s} h := by
    simp only [text] at h
    split at h
    next => cases h
    next size left hr =>
      split at h
      next => cases h
      next content left' ht =>
        split at h
        next => cases h
        next s' hd =>
          cases h
          rw [toByteArray_of_decodeText hd, (takeBytes_eq_ok ht).1]
          exact faithful_word.fits_of_read hr
  eq_of_read {bytes rest s} h := by
    simp only [text] at h ⊢
    split at h
    next => cases h
    next size left hr =>
      split at h
      next => cases h
      next content left' ht =>
        split at h
        next => cases h
        next s' hd =>
          cases h
          obtain ⟨hs, he⟩ := takeBytes_eq_ok ht
          rw [faithful_word.eq_of_read hr, he, toByteArray_of_decodeText hd, hs,
            ByteArray.append_assoc]

theorem Faithful.pair (hf : f.Faithful fits) (hg : g.Faithful fitsToo) :
    (f.pair g).Faithful (fun x => fits x.1 ∧ fitsToo x.2) where
  read_write {x} rest hx := by
    simp only [Format.pair, ByteArray.append_assoc, hf.read_write _ hx.1, hg.read_write _ hx.2]
  fits_of_read {bytes rest x} h := by
    simp only [Format.pair] at h
    split at h
    next => cases h
    next y left hy =>
      split at h
      next => cases h
      next z left' hz =>
        cases h
        exact ⟨hf.fits_of_read hy, hg.fits_of_read hz⟩
  eq_of_read {bytes rest x} h := by
    simp only [Format.pair] at h ⊢
    split at h
    next => cases h
    next y left hy =>
      split at h
      next => cases h
      next z left' hz =>
        cases h
        rw [hf.eq_of_read hy, hg.eq_of_read hz, ByteArray.append_assoc]

/-- Values one after the other, without their number. -/
def writeMany (f : Format α) : List α → ByteArray
  | [] => .empty
  | x :: xs => f.write x ++ f.writeMany xs

theorem foldl_write (xs : List α) (front : ByteArray) :
    xs.foldl (fun bytes x => bytes ++ f.write x) front = front ++ f.writeMany xs := by
  induction xs generalizing front with
  | nil => simp [writeMany]
  | cons x xs ih => rw [List.foldl_cons, ih, writeMany, ByteArray.append_assoc]

theorem Faithful.readMany_writeMany (hf : f.Faithful fits) {xs : List α} (rest : ByteArray)
    (hx : ∀ x ∈ xs, fits x) :
    readMany f.read xs.length (f.writeMany xs ++ rest) = .ok (xs, rest) := by
  induction xs with
  | nil => simp [readMany, writeMany]
  | cons x xs ih =>
    have hhead := hf.read_write (f.writeMany xs ++ rest) (hx x (by simp))
    have htail := ih (fun y hy => hx y (by simp [hy]))
    simp only [List.length_cons, readMany, writeMany, ByteArray.append_assoc, hhead, htail]

theorem Faithful.of_readMany (hf : f.Faithful fits) {count : Nat} {bytes rest : ByteArray}
    {xs : List α} (h : readMany f.read count bytes = .ok (xs, rest)) :
    xs.length = count ∧ (∀ x ∈ xs, fits x) ∧ bytes = f.writeMany xs ++ rest := by
  induction count generalizing bytes xs with
  | zero =>
    cases h
    simp [writeMany]
  | succ count ih =>
    simp only [readMany] at h
    split at h
    next => cases h
    next x left hx =>
      split at h
      next => cases h
      next ys left' hy =>
        cases h
        obtain ⟨hl, hfit, he⟩ := ih hy
        refine ⟨by simp [hl], ?_, ?_⟩
        · intro y hy
          rcases List.mem_cons.mp hy with rfl | hy
          · exact hf.fits_of_read hx
          · exact hfit y hy
        · rw [hf.eq_of_read hx, he, writeMany, ByteArray.append_assoc]

theorem Faithful.list (hf : f.Faithful fits) :
    f.list.Faithful (fun xs => xs.length < wordLimit ∧ ∀ x ∈ xs, fits x) where
  read_write {xs} rest hx := by
    simp only [Format.list, foldl_write, ByteArray.append_assoc, faithful_word.read_write _ hx.1,
      hf.readMany_writeMany rest hx.2]
  fits_of_read {bytes rest xs} h := by
    simp only [Format.list] at h
    split at h
    next => cases h
    next count left hr =>
      obtain ⟨hl, hfit, _⟩ := hf.of_readMany h
      exact ⟨hl ▸ faithful_word.fits_of_read hr, hfit⟩
  eq_of_read {bytes rest xs} h := by
    simp only [Format.list, foldl_write] at h ⊢
    split at h
    next => cases h
    next count left hr =>
      obtain ⟨hl, _, he⟩ := hf.of_readMany h
      rw [faithful_word.eq_of_read hr, he, hl, ByteArray.append_assoc]

theorem Faithful.map (hf : f.Faithful fits) {into : α → β} {out : β → α}
    (into_out : ∀ y, into (out y) = y) (out_into : ∀ x, out (into x) = x) :
    (f.map into out).Faithful (fun y => fits (out y)) where
  read_write {y} rest hy := by
    simp only [Format.map, hf.read_write rest hy, into_out]
  fits_of_read {bytes rest y} h := by
    simp only [Format.map] at h
    split at h
    next => cases h
    next x left hx =>
      cases h
      rw [out_into]
      exact hf.fits_of_read hx
  eq_of_read {bytes rest y} h := by
    simp only [Format.map] at h ⊢
    split at h
    next => cases h
    next x left hx =>
      cases h
      rw [out_into]
      exact hf.eq_of_read hx

/-- A value whose written form takes less than 2 ^ 64 bytes fits. -/
def Bounded (f : Format α) (fits : α → Prop) : Prop :=
  ∀ x, (f.write x).size < wordLimit → fits x

theorem Faithful.decode_write (hf : f.Faithful fits) (hb : f.Bounded fits) {x : α}
    (h : (f.write x).size < wordLimit) : f.decode (f.write x) = .ok x :=
  hf.decode_eq_ok_iff.mpr ⟨hb x h, rfl⟩

@[simp] theorem size_fixed_write (width n : Nat) : ((fixed width).write n).size = width :=
  length_toLittleEndian width n

theorem size_blob_write (content : ByteArray) : (blob.write content).size = 8 + content.size := by
  simp only [blob, ByteArray.size_append, size_fixed_write]

theorem bounded_blob : blob.Bounded (·.size < wordLimit) := by
  intro content h
  rw [size_blob_write] at h
  omega

theorem bounded_text : text.Bounded (·.toByteArray.size < wordLimit) := by
  intro s h
  simp only [text, ByteArray.size_append, size_fixed_write] at h
  omega

theorem size_writeMany_blob (xs : List ByteArray) :
    xs.length ≤ (blob.writeMany xs).size ∧ ∀ x ∈ xs, x.size ≤ (blob.writeMany xs).size := by
  induction xs with
  | nil => simp
  | cons x xs ih =>
    rw [writeMany, ByteArray.size_append, size_blob_write]
    refine ⟨by rw [List.length_cons]; omega, ?_⟩
    intro y hy
    rcases List.mem_cons.mp hy with rfl | hy
    · omega
    · have := ih.2 y hy
      omega

theorem bounded_blobs :
    blob.list.Bounded (fun xs => xs.length < wordLimit ∧ ∀ x ∈ xs, x.size < wordLimit) := by
  intro xs h
  simp only [list, foldl_write, ByteArray.size_append, size_fixed_write] at h
  have hs := size_writeMany_blob xs
  refine ⟨by omega, ?_⟩
  intro x hx
  have := hs.2 x hx
  omega

theorem Bounded.pair (hf : f.Bounded fits) (hg : g.Bounded fitsToo) :
    (f.pair g).Bounded (fun x => fits x.1 ∧ fitsToo x.2) := by
  intro x h
  simp only [Format.pair, ByteArray.size_append] at h
  exact ⟨hf x.1 (by omega), hg x.2 (by omega)⟩

theorem Bounded.map (hf : f.Bounded fits) (into : α → β) (out : β → α) :
    (f.map into out).Bounded (fun y => fits (out y)) :=
  fun y h => hf (out y) h

end Format

end ThresholdSigning
