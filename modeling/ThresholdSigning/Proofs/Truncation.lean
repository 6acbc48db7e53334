import ThresholdSigning.Proofs.Frame
import ThresholdSigning.Proofs.Storage

namespace ThresholdSigning

/-- The bytes end before the value does. -/
inductive WireFault.EndsEarly : WireFault → Prop
  | bytes : EndsEarly .truncated
  | text : EndsEarly .textTruncated

section Cutting

variable {front missing whole : ByteArray}

theorem size_lt_of_append_eq (hmissing : missing ≠ .empty) (h : front ++ missing = whole) :
    front.size < whole.size := by
  have hpos : missing.size ≠ 0 := fun hzero => hmissing (ByteArray.size_eq_zero_iff.mp hzero)
  rw [← h, ByteArray.size_append]
  omega

/-- Bytes that were written in two parts are cut within the first part or after it. -/
theorem cases_of_append_eq {first second : ByteArray} (h : front ++ missing = first ++ second) :
    (∃ lost, lost ≠ .empty ∧ front ++ lost = first) ∨
      ∃ middle, front = first ++ middle ∧ middle ++ missing = second := by
  have hlists := congrArg (·.data.toList) h
  simp only [ByteArray.toList_data_append] at hlists
  rcases List.append_eq_append_iff.mp hlists with ⟨lost, hfirst, hback⟩ | ⟨middle, hfront, hsecond⟩
  · by_cases hlost : lost = []
    · subst hlost
      refine Or.inr ⟨.empty, ?_, ?_⟩
      · rw [ByteArray.append_empty]
        exact bytes_ext (by simpa using hfirst.symm)
      · rw [ByteArray.empty_append]
        exact bytes_ext (by simpa using hback)
    · refine Or.inl ⟨⟨⟨lost⟩⟩, ?_, bytes_ext ?_⟩
      · intro hempty
        exact hlost (congrArg (·.data.toList) hempty)
      · rw [ByteArray.toList_data_append, hfirst]
  · refine Or.inr ⟨⟨⟨middle⟩⟩, bytes_ext ?_, bytes_ext ?_⟩
    · rw [ByteArray.toList_data_append, hfront]
    · rw [ByteArray.toList_data_append, hsecond]

theorem takeBytes_of_lt {count : Nat} (h : front.size < count) :
    takeBytes count front = .error .truncated :=
  if_pos h

end Cutting

namespace Format

variable {α β : Type} {f : Format α} {g : Format β} {fits : α → Prop} {fitsToo : β → Prop}

/-- A format that in addition refuses each beginning of what it writes, because it ends early. -/
structure Unbroken (f : Format α) (fits : α → Prop) : Prop extends f.Faithful fits where
  read_front : ∀ {x : α} {front missing : ByteArray}, fits x → missing ≠ .empty →
    front ++ missing = f.write x → ∃ fault, f.read front = .error fault ∧ fault.EndsEarly

theorem unbroken_fixed (width : Nat) : (fixed width).Unbroken (· < 256 ^ width) where
  toFaithful := faithful_fixed width
  read_front {n front missing} _ hmissing h := by
    have hlt := size_lt_of_append_eq hmissing h
    rw [size_fixed_write] at hlt
    exact ⟨.truncated, by simp only [fixed, takeBytes_of_lt hlt], .bytes⟩

theorem unbroken_signed32 : signed32.Unbroken (fun i => -0x80000000 ≤ i ∧ i < 0x80000000) where
  toFaithful := faithful_signed32
  read_front {i front missing} _ hmissing h := by
    have hn : (i % 0x100000000).toNat < 256 ^ 4 := by omega
    obtain ⟨fault, hr, hearly⟩ := (unbroken_fixed 4).read_front hn hmissing h
    exact ⟨fault, by simp only [signed32, hr], hearly⟩

theorem unbroken_flag : flag.Unbroken (fun _ => True) where
  toFaithful := faithful_flag
  read_front {b front missing} _ hmissing h := by
    have hlt : front.size < 1 := size_lt_of_append_eq hmissing h
    exact ⟨.truncated, by simp only [flag, takeBytes_of_lt hlt], .bytes⟩

theorem unbroken_word : (fixed 8).Unbroken (· < wordLimit) := unbroken_fixed 8

theorem unbroken_blob : blob.Unbroken (·.size < wordLimit) where
  toFaithful := faithful_blob
  read_front {content front missing} hsize hmissing h := by
    rcases cases_of_append_eq h with ⟨lost, hlost, hfront⟩ | ⟨middle, rfl, hrest⟩
    · obtain ⟨fault, hr, hearly⟩ := unbroken_word.read_front hsize hlost hfront
      exact ⟨fault, by simp only [blob, hr], hearly⟩
    · have htake := takeBytes_of_lt (size_lt_of_append_eq hmissing hrest)
      exact ⟨.truncated, by simp only [blob, faithful_word.read_write middle hsize, htake], .bytes⟩

theorem unbroken_text : text.Unbroken (·.toByteArray.size < wordLimit) where
  toFaithful := faithful_text
  read_front {s front missing} hsize hmissing h := by
    rcases cases_of_append_eq h with ⟨lost, hlost, hfront⟩ | ⟨middle, rfl, hrest⟩
    · obtain ⟨fault, hr, hearly⟩ := unbroken_word.read_front hsize hlost hfront
      exact ⟨fault, by simp only [text, hr], hearly⟩
    · have htake := takeBytes_of_lt (size_lt_of_append_eq hmissing hrest)
      exact ⟨.textTruncated, by simp only [text, faithful_word.read_write middle hsize, htake],
        .text⟩

theorem Unbroken.pair (hf : f.Unbroken fits) (hg : g.Unbroken fitsToo) :
    (f.pair g).Unbroken (fun x => fits x.1 ∧ fitsToo x.2) where
  toFaithful := hf.toFaithful.pair hg.toFaithful
  read_front {x front missing} hx hmissing h := by
    rcases cases_of_append_eq h with ⟨lost, hlost, hfront⟩ | ⟨middle, rfl, hrest⟩
    · obtain ⟨fault, hr, hearly⟩ := hf.read_front hx.1 hlost hfront
      exact ⟨fault, by simp only [Format.pair, hr], hearly⟩
    · obtain ⟨fault, hr, hearly⟩ := hg.read_front hx.2 hmissing hrest
      exact ⟨fault, by simp only [Format.pair, hf.read_write middle hx.1, hr], hearly⟩

theorem Unbroken.readMany_front (hf : f.Unbroken fits) {xs : List α} {front missing : ByteArray}
    (hx : ∀ x ∈ xs, fits x) (hmissing : missing ≠ .empty) (h : front ++ missing = f.writeMany xs) :
    ∃ fault, readMany f.read xs.length front = .error fault ∧ fault.EndsEarly := by
  induction xs generalizing front with
  | nil => exact absurd (size_lt_of_append_eq hmissing h) (Nat.not_lt_zero _)
  | cons x xs ih =>
    rcases cases_of_append_eq h with ⟨lost, hlost, hfront⟩ | ⟨middle, rfl, hrest⟩
    · obtain ⟨fault, hr, hearly⟩ := hf.read_front (hx x (by simp)) hlost hfront
      exact ⟨fault, by simp only [List.length_cons, readMany, hr], hearly⟩
    · obtain ⟨fault, hr, hearly⟩ := ih (fun y hy => hx y (by simp [hy])) hrest
      have hhead := hf.read_write middle (hx x (by simp))
      exact ⟨fault, by simp only [List.length_cons, readMany, hhead, hr], hearly⟩

theorem Unbroken.list (hf : f.Unbroken fits) :
    f.list.Unbroken (fun xs => xs.length < wordLimit ∧ ∀ x ∈ xs, fits x) where
  toFaithful := hf.toFaithful.list
  read_front {xs front missing} hx hmissing h := by
    simp only [Format.list, foldl_write] at h
    rcases cases_of_append_eq h with ⟨lost, hlost, hfront⟩ | ⟨middle, rfl, hrest⟩
    · obtain ⟨fault, hr, hearly⟩ := unbroken_word.read_front hx.1 hlost hfront
      exact ⟨fault, by simp only [Format.list, hr], hearly⟩
    · obtain ⟨fault, hr, hearly⟩ := hf.readMany_front hx.2 hmissing hrest
      exact ⟨fault, by simp only [Format.list, faithful_word.read_write middle hx.1, hr], hearly⟩

theorem Unbroken.map (hf : f.Unbroken fits) {into : α → β} {out : β → α}
    (into_out : ∀ y, into (out y) = y) (out_into : ∀ x, out (into x) = x) :
    (f.map into out).Unbroken (fun y => fits (out y)) where
  toFaithful := hf.toFaithful.map into_out out_into
  read_front {y front missing} hy hmissing h := by
    obtain ⟨fault, hr, hearly⟩ := hf.read_front hy hmissing h
    exact ⟨fault, by simp only [Format.map, hr], hearly⟩

theorem Unbroken.decode_front (hf : f.Unbroken fits) {bytes front missing : ByteArray} {x : α}
    (h : f.decode bytes = .ok x) (hmissing : missing ≠ .empty) (hbytes : front ++ missing = bytes) :
    ∃ fault, f.decode front = .error fault ∧ fault.EndsEarly := by
  obtain ⟨hx, hwrite⟩ := hf.decode_eq_ok_iff.mp h
  obtain ⟨fault, hr, hearly⟩ := hf.read_front hx hmissing (hbytes.trans hwrite.symm)
  exact ⟨fault, by simp only [decode, hr], hearly⟩

theorem Faithful.decode_append (hf : f.Faithful fits) {bytes extra : ByteArray} {x : α}
    (h : f.decode bytes = .ok x) (hextra : extra ≠ .empty) :
    f.decode (bytes ++ extra) = .error .leftOver := by
  obtain ⟨hx, rfl⟩ := hf.decode_eq_ok_iff.mp h
  have hsize : extra.size ≠ 0 := fun hzero => hextra (ByteArray.size_eq_zero_iff.mp hzero)
  simp only [decode, hf.read_write extra hx, hsize, if_false]

end Format

section Delimiting

variable {α β : Type} {read : ByteArray → Except Error β} {inLimit : ByteArray → Prop}

/-- Where bytes are accepted, each beginning of them is refused because it ends early, and what goes
on after them is refused for what is left, unless it is too large to be read at all. -/
structure SelfDelimiting (read : ByteArray → Except Error β) (inLimit : ByteArray → Prop) :
    Prop where
  front : ∀ {bytes front missing : ByteArray} {x : β}, read bytes = .ok x → missing ≠ .empty →
    front ++ missing = bytes →
      ∃ fault, read front = .error (.codec (.wire fault)) ∧ fault.EndsEarly
  append : ∀ {bytes extra : ByteArray} {x : β}, read bytes = .ok x → extra ≠ .empty →
    inLimit (bytes ++ extra) → read (bytes ++ extra) = .error (.codec (.wire .leftOver))

/-- No written form begins another one. -/
def PrefixFree (written : β → ByteArray → Prop) : Prop :=
  ∀ (x y : β) (bytes extra : ByteArray), written x bytes → written y (bytes ++ extra) →
    y = x ∧ extra = .empty

theorem SelfDelimiting.prefixFree {written : β → ByteArray → Prop}
    (hread : SelfDelimiting read inLimit)
    (hwritten : ∀ {x bytes}, written x bytes → read bytes = .ok x ∧ inLimit bytes) :
    PrefixFree written := by
  intro x y bytes extra hx hy
  obtain ⟨hreadx, -⟩ := hwritten hx
  obtain ⟨hready, hlimit⟩ := hwritten hy
  by_cases hextra : extra = .empty
  · subst hextra
    rw [ByteArray.append_empty, hreadx] at hready
    cases hready
    exact ⟨rfl, rfl⟩
  · rw [hread.append hreadx hextra hlimit] at hready
    cases hready

/-- A reader that begins with a whole record, and reports why there is none, delimits itself. -/
theorem Format.Unbroken.selfDelimiting {f : Format α} {fits : α → Prop} (hf : f.Unbroken fits)
    (haccepts : ∀ {bytes x}, read bytes = .ok x → inLimit bytes ∧ ∃ y, f.decode bytes = .ok y)
    (hfault : ∀ {bytes fault}, inLimit bytes → f.decode bytes = .error fault →
      read bytes = .error (.codec (.wire fault)))
    (hfront : ∀ {front missing}, inLimit (front ++ missing) → inLimit front) :
    SelfDelimiting read inLimit where
  front {bytes front missing x} hread hmissing hbytes := by
    obtain ⟨hlimit, y, hy⟩ := haccepts hread
    obtain ⟨fault, hdecode, hearly⟩ := hf.decode_front hy hmissing hbytes
    rw [← hbytes] at hlimit
    exact ⟨fault, hfault (hfront hlimit) hdecode, hearly⟩
  append {bytes extra x} hread hextra hlimit := by
    obtain ⟨-, y, hy⟩ := haccepts hread
    exact hfault hlimit (hf.decode_append hy hextra)

end Delimiting

namespace Envelope

theorem unbroken_frame :
    frame.Unbroken (fun x => x.1.toByteArray.size < wordLimit ∧ x.2.size < wordLimit) :=
  Format.unbroken_text.pair Format.unbroken_blob

theorem unbroken_member : member.Unbroken (·.bytes.size < wordLimit) :=
  Format.unbroken_blob.map (fun _ => rfl) (fun _ => rfl)

theorem unbroken_message :
    message.Unbroken (fun m => m.sender.bytes.size < wordLimit ∧ m.payload.size < wordLimit ∧
      True) :=
  (unbroken_member.pair (Format.unbroken_blob.pair Format.unbroken_flag)).map
    (fun _ => rfl) (fun _ => rfl)

theorem selfDelimiting_decode : SelfDelimiting decode (·.size ≤ maxEnvelopeSize) := by
  refine unbroken_frame.selfDelimiting ?_ ?_ ?_
  · intro bytes e h
    obtain ⟨hsize, rfl⟩ := decode_eq_ok_iff.mp h
    exact ⟨hsize, _, frame_decode_write hsize⟩
  · intro bytes fault hsize hfault
    simp only [decode, if_neg (Nat.not_lt.mpr hsize), hfault]
  · intro front missing hsize
    rw [ByteArray.size_append] at hsize
    omega

/-- Reads a message of a known kind, without its tag. -/
def unmarshal (kind : Kind) (bytes : ByteArray) : Except Error Envelope :=
  (ofBody kind bytes).mapError fun fault => .codec (.wire fault)

theorem unmarshal_eq_ok_iff {k : Kind} {bytes : ByteArray} {e : Envelope} :
    unmarshal k bytes = .ok e ↔ ofBody k bytes = .ok e := by
  unfold unmarshal
  cases ofBody k bytes with
  | error fault => simp [Except.mapError]
  | ok other => simp [Except.mapError]

/-- A frame that fits is read as its tag says, whatever its body. -/
theorem decode_frame {k : Kind} {content : ByteArray}
    (hsize : (frame.write (k.tag, content)).size ≤ maxEnvelopeSize) :
    decode (frame.write (k.tag, content)) = unmarshal k content := by
  have hkind : Kind.ofTag? k.tag = some k := Kind.ofTag?_eq_some_iff.mpr rfl
  simp only [decode, if_neg (Nat.not_lt.mpr hsize), frame_decode_write hsize, hkind, unmarshal]
  cases ofBody k content with
  | error fault => rfl
  | ok e => rfl

theorem selfDelimiting_of_ofBody {α : Type} {f : Format α} {fits : α → Prop} (hf : f.Unbroken fits)
    {k : Kind} (into : α → Envelope) (hbody : ∀ bytes, ofBody k bytes = (f.decode bytes).map into) :
    SelfDelimiting (unmarshal k) (fun _ => True) := by
  refine hf.selfDelimiting ?_ ?_ (fun _ => trivial)
  · intro bytes e h
    rw [unmarshal_eq_ok_iff, hbody] at h
    cases hdecode : f.decode bytes with
    | error fault =>
      rw [hdecode] at h
      cases h
    | ok x => exact ⟨trivial, x, rfl⟩
  · intro bytes fault _ hfault
    rw [unmarshal, hbody, hfault]
    rfl

theorem selfDelimiting_unmarshal (k : Kind) : SelfDelimiting (unmarshal k) (fun _ => True) := by
  cases k with
  | protocol =>
    refine selfDelimiting_of_ofBody unbroken_message protocol fun bytes => ?_
    unfold ofBody
    cases message.decode bytes <;> rfl
  | join =>
    refine selfDelimiting_of_ofBody unbroken_member join fun bytes => ?_
    unfold ofBody
    cases member.decode bytes <;> rfl
  | announce =>
    refine selfDelimiting_of_ofBody unbroken_member announce fun bytes => ?_
    unfold ofBody
    cases member.decode bytes <;> rfl

end Envelope

theorem SignerRecord.unbroken_format : SignerRecord.format.Unbroken SignerRecord.Fits := by
  have blob := Format.unbroken_blob
  have group : GroupRecord.format.Unbroken _ :=
    (Format.unbroken_text.pair (blob.pair (blob.list.pair Format.unbroken_signed32))).map
      (fun _ => rfl) (fun _ => rfl)
  exact ((Format.unbroken_fixed 4).pair (group.pair blob)).map (fun _ => rfl) (fun _ => rfl)

theorem Signer.selfDelimiting_unmarshal : SelfDelimiting unmarshal (fun _ => True) := by
  refine SignerRecord.unbroken_format.selfDelimiting ?_ ?_ (fun _ => trivial)
  · intro bytes s h
    obtain ⟨r, -, hr, -⟩ := unmarshal_eq_ok_iff.mp h
    exact ⟨trivial, r, hr⟩
  · intro bytes fault _ hfault
    simp only [unmarshal, hfault]

/-- Envelopes, messages without their frame and stored signers are refused if anything of their end
is missing or anything follows it. So a body that is cut or padded does not pass in a frame that was
made for it, and no written form begins another one. -/
theorem selfDelimiting_and_prefixFree :
    SelfDelimiting Envelope.decode (·.size ≤ maxEnvelopeSize) ∧
      (∀ k, SelfDelimiting (Envelope.unmarshal k) (fun _ => True)) ∧
      SelfDelimiting Signer.unmarshal (fun _ => True) ∧
      (∀ (k : Envelope.Kind) (content : ByteArray),
        (Envelope.frame.write (k.tag, content)).size ≤ maxEnvelopeSize →
          Envelope.decode (Envelope.frame.write (k.tag, content)) =
            Envelope.unmarshal k content) ∧
      PrefixFree (fun (e : Envelope) bytes => e.encode = .ok bytes) ∧
      (∀ k, PrefixFree fun (e : Envelope) bytes =>
        e.kind = k ∧ e.body = bytes ∧ bytes.size < wordLimit) ∧
      PrefixFree (fun (s : Signer) bytes => s.Fits ∧ s.marshal = .ok bytes) := by
  refine ⟨Envelope.selfDelimiting_decode, Envelope.selfDelimiting_unmarshal,
    Signer.selfDelimiting_unmarshal, fun k content => Envelope.decode_frame, ?_, ?_, ?_⟩
  · refine Envelope.selfDelimiting_decode.prefixFree fun hencode => ?_
    exact ⟨Envelope.decode_of_encode hencode, (Envelope.encode_eq_ok_iff.mp hencode).1⟩
  · intro k
    refine (Envelope.selfDelimiting_unmarshal k).prefixFree ?_
    rintro e bytes ⟨rfl, rfl, hsize⟩
    exact ⟨Envelope.unmarshal_eq_ok_iff.mpr (Envelope.ofBody_body e hsize), trivial⟩
  · refine Signer.selfDelimiting_unmarshal.prefixFree ?_
    rintro s bytes ⟨hfits, hmarshal⟩
    exact ⟨Signer.unmarshal_of_marshal hfits hmarshal, trivial⟩

/-- The frame of a join is refused without its body, and with three bytes too many. -/
theorem refused_join :
    let e : Envelope := .join ⟨⟨#[97]⟩⟩
    Envelope.decode e.framed = .ok e ∧
      (∃ fault, Envelope.decode (Format.text.write e.kind.tag) = .error (.codec (.wire fault)) ∧
        fault.EndsEarly) ∧
      Envelope.decode (e.framed ++ ⟨#[0, 0, 0]⟩) = .error (.codec (.wire .leftOver)) := by
  intro e
  have hread : Envelope.decode e.framed = .ok e :=
    Envelope.decode_eq_ok_iff.mpr ⟨by decide, rfl⟩
  have hframes := selfDelimiting_and_prefixFree.1
  exact ⟨hread, hframes.front hread (by decide) rfl, hframes.append hread (by decide) (by decide)⟩

end ThresholdSigning
