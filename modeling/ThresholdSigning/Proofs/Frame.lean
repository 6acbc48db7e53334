import ThresholdSigning.Envelope
import ThresholdSigning.Proofs.Format

namespace ThresholdSigning.Envelope

theorem Kind.ofTag?_eq_some_iff {tag : String} {k : Kind} :
    Kind.ofTag? tag = some k ↔ k.tag = tag := by
  unfold Kind.ofTag?
  constructor
  · intro h
    split at h
    next ht => cases h; exact ht.symm
    next =>
      split at h
      next ht => cases h; exact ht.symm
      next =>
        split at h
        next ht => cases h; exact ht.symm
        next => cases h
  · rintro rfl
    cases k with
    | protocol => rfl
    | join => rw [if_neg (by decide), if_pos rfl]
    | announce => rw [if_neg (by decide), if_neg (by decide), if_pos rfl]

theorem faithful_frame :
    frame.Faithful (fun x => x.1.toByteArray.size < wordLimit ∧ x.2.size < wordLimit) :=
  Format.faithful_text.pair Format.faithful_blob

theorem faithful_member : member.Faithful (·.bytes.size < wordLimit) :=
  Format.faithful_blob.map (fun _ => rfl) (fun _ => rfl)

theorem faithful_message :
    message.Faithful (fun m => m.sender.bytes.size < wordLimit ∧ m.payload.size < wordLimit ∧
      True) :=
  (faithful_member.pair (Format.faithful_blob.pair Format.faithful_flag)).map
    (fun _ => rfl) (fun _ => rfl)

theorem bounded_frame :
    frame.Bounded (fun x => x.1.toByteArray.size < wordLimit ∧ x.2.size < wordLimit) :=
  Format.bounded_text.pair Format.bounded_blob

theorem bounded_member : member.Bounded (·.bytes.size < wordLimit) :=
  Format.bounded_blob.map _ _

theorem bounded_message :
    message.Bounded (fun m => m.sender.bytes.size < wordLimit ∧ m.payload.size < wordLimit ∧
      True) := by
  have flag : Format.flag.Bounded (fun _ => True) := fun _ _ => trivial
  exact (bounded_member.pair (Format.bounded_blob.pair flag)).map _ _

theorem ofBody_body (e : Envelope) (h : e.body.size < wordLimit) :
    ofBody e.kind e.body = .ok e := by
  cases e with
  | protocol m =>
    have hm : message.decode (message.write m) = .ok m :=
      faithful_message.decode_write bounded_message h
    simp only [ofBody, kind, body, hm]
  | join sender =>
    have hm : member.decode (member.write sender) = .ok sender :=
      faithful_member.decode_write bounded_member h
    simp only [ofBody, kind, body, hm]
  | announce sender =>
    have hm : member.decode (member.write sender) = .ok sender :=
      faithful_member.decode_write bounded_member h
    simp only [ofBody, kind, body, hm]

theorem body_of_ofBody {k : Kind} {content : ByteArray} {e : Envelope}
    (h : ofBody k content = .ok e) : e.kind = k ∧ e.body = content := by
  cases k with
  | protocol =>
    simp only [ofBody] at h
    split at h
    next => cases h
    next m hm => cases h; exact ⟨rfl, faithful_message.write_of_decode hm⟩
  | join =>
    simp only [ofBody] at h
    split at h
    next => cases h
    next sender hm => cases h; exact ⟨rfl, faithful_member.write_of_decode hm⟩
  | announce =>
    simp only [ofBody] at h
    split at h
    next => cases h
    next sender hm => cases h; exact ⟨rfl, faithful_member.write_of_decode hm⟩

/-- The frame of an envelope, however large. -/
def framed (e : Envelope) : ByteArray := frame.write (e.kind.tag, e.body)

theorem size_framed (e : Envelope) :
    e.framed.size = 16 + e.kind.tag.toByteArray.size + e.body.size := by
  simp only [framed, frame, Format.pair, Format.text, Format.blob, ByteArray.size_append,
    Format.size_fixed_write]
  omega

theorem encode_eq (e : Envelope) :
    e.encode =
      if maxEnvelopeSize < e.framed.size then .error (.codec (.envelopeTooLarge e.framed.size))
      else .ok e.framed :=
  rfl

theorem encode_eq_ok_iff {e : Envelope} {bytes : ByteArray} :
    e.encode = .ok bytes ↔ bytes.size ≤ maxEnvelopeSize ∧ e.framed = bytes := by
  rw [encode_eq]
  constructor
  · intro h
    split at h
    next => cases h
    next hs =>
      cases h
      exact ⟨Nat.not_lt.mp hs, rfl⟩
  · rintro ⟨hs, rfl⟩
    exact if_neg (Nat.not_lt.mpr hs)

theorem encode_eq_error_iff {e : Envelope} {error : Error} :
    e.encode = .error error ↔
      maxEnvelopeSize < e.framed.size ∧ error = .codec (.envelopeTooLarge e.framed.size) := by
  rw [encode_eq]
  constructor
  · intro h
    split at h
    next hs =>
      cases h
      exact ⟨hs, rfl⟩
    next => cases h
  · rintro ⟨hs, rfl⟩
    exact if_pos hs

/-- Oversized bytes are refused for their size, and nothing else is. -/
theorem decode_eq_tooLarge_iff {bytes : ByteArray} {size : Nat} :
    decode bytes = .error (.codec (.envelopeTooLarge size)) ↔
      maxEnvelopeSize < bytes.size ∧ size = bytes.size := by
  unfold decode
  constructor
  · intro h
    split at h
    next hs =>
      cases h
      exact ⟨hs, rfl⟩
    next =>
      split at h
      next => cases h
      next =>
        split at h
        next => cases h
        next => split at h <;> cases h
  · rintro ⟨hs, rfl⟩
    exact if_pos hs

theorem frame_decode_write {tag : String} {content : ByteArray}
    (h : (frame.write (tag, content)).size ≤ maxEnvelopeSize) :
    frame.decode (frame.write (tag, content)) = .ok (tag, content) := by
  have hword : maxEnvelopeSize < wordLimit := by decide
  exact faithful_frame.decode_write bounded_frame (Nat.lt_of_le_of_lt h hword)

theorem decode_eq_ok_iff {bytes : ByteArray} {e : Envelope} :
    decode bytes = .ok e ↔ bytes.size ≤ maxEnvelopeSize ∧ e.framed = bytes := by
  unfold decode
  constructor
  · intro h
    split at h
    next => cases h
    next hs =>
      split at h
      next => cases h
      next tag content hf =>
        split at h
        next => cases h
        next k hk =>
          split at h
          next => cases h
          next e' he =>
            cases h
            obtain ⟨rfl, rfl⟩ := body_of_ofBody he
            refine ⟨Nat.not_lt.mp hs, ?_⟩
            rw [framed, Kind.ofTag?_eq_some_iff.mp hk]
            exact faithful_frame.write_of_decode hf
  · rintro ⟨hs, rfl⟩
    have hf : frame.decode e.framed = .ok (e.kind.tag, e.body) := frame_decode_write hs
    have hk : Kind.ofTag? e.kind.tag = some e.kind := Kind.ofTag?_eq_some_iff.mpr rfl
    have he := ofBody_body e (faithful_frame.decode_eq_ok_iff.mp hf).1.2
    simp only [if_neg (Nat.not_lt.mpr hs), hf, hk, he]

theorem decode_of_encode {e : Envelope} {bytes : ByteArray} (h : e.encode = .ok bytes) :
    decode bytes = .ok e :=
  decode_eq_ok_iff.mpr (encode_eq_ok_iff.mp h)

/-- Decoding and encoding are inverse to each other, so frames of different envelopes differ even
where their bodies agree; encoding fails for its size alone, and decoding has the same limit. -/
theorem decode_eq_ok_iff_encode_eq_ok (e : Envelope) (bytes : ByteArray) :
    (decode bytes = .ok e ↔ e.encode = .ok bytes) ∧
      (∀ other : Envelope, e.encode = .ok bytes → other.encode = .ok bytes → other = e) ∧
      (∀ m, (join m).body = (announce m).body) ∧
      (∀ error, e.encode = .error error ↔
        maxEnvelopeSize < 16 + e.kind.tag.toByteArray.size + e.body.size ∧
          error = .codec (.envelopeTooLarge (16 + e.kind.tag.toByteArray.size + e.body.size))) ∧
      (∀ size, decode bytes = .error (.codec (.envelopeTooLarge size)) ↔
        maxEnvelopeSize < bytes.size ∧ size = bytes.size) := by
  refine ⟨?_, ?_, fun _ => rfl, ?_, fun _ => decode_eq_tooLarge_iff⟩
  · rw [decode_eq_ok_iff, encode_eq_ok_iff]
  · intro other he ho
    have hd := decode_of_encode ho
    rw [decode_of_encode he] at hd
    cases hd
    rfl
  · intro error
    rw [encode_eq_error_iff, size_framed]

end ThresholdSigning.Envelope
