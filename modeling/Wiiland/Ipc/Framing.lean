/-
Framing from end to end.  What one side encodes, cut into any chunks, the other
side collects and decodes into the same values in the same order.
-/
import Wiiland.Ipc.FrameBuffer
import Wiiland.Ipc.Payload

namespace Wiiland

namespace Ipc

variable {A : Type}

/-- The payloads inside a value, read by the hand-written deserializer. -/
class HasPayloads (A : Type) where
  payloads : A → List InputPayload

def Notification.payloads : Notification → List InputPayload
  | .input _ _ _ payload => [payload]
  | _ => []

instance : HasPayloads Request where
  payloads _ := []

instance : HasPayloads ServerMessage where
  payloads
    | .notification notification => notification.payloads
    | _ => []

/-- What is known of the JSON library: it writes one line, and its derived readers
undo its derived writers around payloads that read back. -/
structure Serde.Lawful [HasPayloads A] (serde : Serde A) : Prop where
  oneLine : ∀ value json, serde.toVec value = .ok json → newline ∉ json
  noReturn : ∀ value json, serde.toVec value = .ok json →
    json.getLast? ≠ some carriageReturn
  undo : ∀ value json, serde.toVec value = .ok json →
    (∀ payload ∈ HasPayloads.payloads value,
      InputPayload.fromJson payload.toJson = .ok payload) →
    serde.fromSlice json = .ok value

theorem stripCr_of_last {line : List UInt8} (hlast : line.getLast? ≠ some carriageReturn) :
    stripCr line = line := if_neg hlast

theorem getLast_ne_of_not_mem {byte : UInt8} {line : List UInt8} (hline : byte ∉ line) :
    line.getLast? ≠ some byte := fun hlast => hline (List.mem_of_getLast? hlast)

/-- What is encoded decodes. -/
theorem decodeFrame_json [HasPayloads A] {serde : Serde A} (hlawful : serde.Lawful)
    {value : A} {json : List UInt8} (hjson : serde.toVec value = .ok json)
    (hlength : json.length ≤ maxFrameBytes) :
    decodeFrame serde json = .ok value := by
  have hline := getLast_ne_of_not_mem (hlawful.oneLine value json hjson)
  have hread := hlawful.undo value json hjson
    fun payload _ => InputPayload.fromJson_toJson payload
  simp only [decodeFrame, if_neg hline, stripCr_of_last (hlawful.noReturn value json hjson),
    if_neg (Nat.not_lt.mpr hlength), hread]

/-- The JSON texts of frames that were all accepted. -/
theorem exists_texts {serde : Serde A} {values : List A} {frames : List (List UInt8)}
    (hframes : List.Forall₂ (fun value frame => encodeFrame serde value = .ok frame)
      values frames) :
    ∃ texts, frames.flatten = Lines.glue newline texts [] ∧
      List.Forall₂ (fun value json => serde.toVec value = .ok json ∧
        json.length ≤ maxFrameBytes) values texts := by
  induction hframes with
  | nil => exact ⟨[], rfl, .nil⟩
  | cons hframe _ ih =>
      obtain ⟨json, hjson, hlength, rfl⟩ := encodeFrame_eq_ok.mp hframe
      obtain ⟨texts, hglue, htexts⟩ := ih
      refine ⟨json :: texts, ?_, .cons ⟨hjson, hlength⟩ htexts⟩
      rw [List.flatten_cons, hglue]
      simp [Lines.glue]

theorem decodeFrame_texts [HasPayloads A] {serde : Serde A} (hlawful : serde.Lawful)
    {values : List A} {texts : List (List UInt8)}
    (htexts : List.Forall₂ (fun value json => serde.toVec value = .ok json ∧
      json.length ≤ maxFrameBytes) values texts) :
    (texts.map stripCr).map (decodeFrame serde) = values.map .ok ∧
      (∀ json ∈ texts, newline ∉ json ∧ Fits json) := by
  induction htexts with
  | nil => simp
  | @cons value json values texts hjson _ ih =>
      have hplain := stripCr_of_last (hlawful.noReturn value json hjson.1)
      refine ⟨?_, ?_⟩
      · simp only [List.map_cons, hplain, decodeFrame_json hlawful hjson.1 hjson.2, ih.1]
      · rw [List.forall_mem_cons]
        refine ⟨⟨hlawful.oneLine value json hjson.1, ?_⟩, ih.2⟩
        rw [Fits, hplain]
        exact hjson.2

/-- The frames of accepted values are whole lines, none too long, that decode to the
values. -/
theorem decodeFrame_frames [HasPayloads A] {serde : Serde A} (hlawful : serde.Lawful)
    {values : List A} {frames : List (List UInt8)}
    (hframes : List.Forall₂ (fun value frame => encodeFrame serde value = .ok frame)
      values frames) :
    Acceptable frames.flatten ∧ (Lines.cut newline frames.flatten).2 = [] ∧
      (Lines.cut newline frames.flatten).1.map
        (fun line => decodeFrame serde (stripCr line)) = values.map .ok := by
  obtain ⟨texts, hglue, htexts⟩ := exists_texts hframes
  obtain ⟨hdecode, hplain⟩ := decodeFrame_texts hlawful htexts
  have hcut : Lines.cut newline frames.flatten = (texts, []) := by
    rw [hglue]
    exact Lines.cut_glue (fun json hjson => (hplain json hjson).1) List.not_mem_nil
  rw [Acceptable, hcut]
  refine ⟨⟨fun json hjson => (hplain json hjson).2, fits_nil⟩, rfl, ?_⟩
  rw [← hdecode, List.map_map]
  rfl

open FrameBuffer

/-- Accepted values, however their frames are cut, arrive whole and in order, and
nothing is left over. -/
def Transparent (serde : Serde A) : Prop :=
  ∀ (values : List A) (frames : List (List UInt8)),
    List.Forall₂ (fun value frame => encodeFrame serde value = .ok frame) values frames →
    ∀ chunks : List (List UInt8), chunks.flatten = frames.flatten →
      allOk (pushAll {} chunks).1 ∧
        (returned (pushAll {} chunks).1).map (decodeFrame serde) = values.map .ok ∧
        (pushAll {} chunks).2.bytes = []

theorem transparent_of_lawful [HasPayloads A] {serde : Serde A}
    (hlawful : serde.Lawful) : Transparent serde := by
  intro values frames hframes chunks hchunks
  obtain ⟨haccept, hnone, hdecode⟩ := decodeFrame_frames hlawful hframes
  rw [← hchunks] at haccept hnone hdecode
  have hspec := pushAll_spec retained_empty chunks
  have hok : allOk (pushAll {} chunks).1 := hspec.1.mpr haccept
  obtain ⟨hlines, hrest⟩ := hspec.2 hok
  refine ⟨hok, ?_, hrest.trans hnone⟩
  rw [hlines, ← hdecode]
  exact List.map_map

/-- A front part of accepted frames has whole lines that decode to the first of the
values, and none that is too long. -/
theorem decodeFrame_front [HasPayloads A] {serde : Serde A} (hlawful : serde.Lawful)
    {values : List A} {frames : List (List UInt8)}
    (hframes : List.Forall₂ (fun value frame => encodeFrame serde value = .ok frame)
      values frames) {stream : List UInt8} (hstream : stream <+: frames.flatten) :
    Acceptable stream ∧
      (Lines.cut newline stream).1.map (fun line => decodeFrame serde (stripCr line)) <+:
        values.map .ok := by
  obtain ⟨haccept, _, hdecode⟩ := decodeFrame_frames hlawful hframes
  refine ⟨?_, hdecode ▸ (Lines.cut_front hstream).map _⟩
  obtain ⟨rest, hrest⟩ := hstream
  exact acceptable_of_append (hrest ▸ haccept)

/-- Requests and messages cross any cuts unchanged, and every payload reads back. -/
theorem framing_transparent {requests : Serde Request} {messages : Serde ServerMessage}
    (hrequests : requests.Lawful) (hmessages : messages.Lawful) :
    Transparent requests ∧ Transparent messages ∧
      ∀ payload : InputPayload, InputPayload.fromJson payload.toJson = .ok payload :=
  ⟨transparent_of_lawful hrequests, transparent_of_lawful hmessages,
    InputPayload.fromJson_toJson⟩

/-- A library that knows the text of a single value. -/
def Serde.single [DecidableEq A] (value : A) (json : List UInt8) : Serde A where
  toVec other := if other = value then .ok json else .error "unsupported value"
  fromSlice text := if text = json then .ok value else .error "expected value"

theorem Serde.single_lawful [DecidableEq A] [HasPayloads A] {value : A}
    {json : List UInt8} (hline : newline ∉ json)
    (hreturn : json.getLast? ≠ some carriageReturn) : (single value json).Lawful := by
  have hwrites : ∀ other text, (single value json).toVec other = .ok text →
      other = value ∧ text = json := by
    intro other text htext
    simp only [single] at htext
    split at htext
    · next hother => exact ⟨hother, (Except.ok.inj htext).symm⟩
    · cases htext
  refine ⟨?_, ?_, ?_⟩
  · intro other text htext
    rwa [(hwrites other text htext).2]
  · intro other text htext
    rwa [(hwrites other text htext).2]
  · intro other text htext _
    obtain ⟨rfl, rfl⟩ := hwrites other text htext
    simp [single]

/-- The bytes of an ASCII text. -/
def textBytes (text : String) : List UInt8 := text.toList.map fun c => c.toNat.toUInt8

theorem textBytes_ofList (text : List Char) :
    textBytes (String.ofList text) = text.map fun c => c.toNat.toUInt8 := by
  rw [textBytes, String.toList_ofList]

/-- A text without line breaks that fits everywhere. -/
def Short (text : List UInt8) : Prop :=
  newline ∉ text ∧ carriageReturn ∉ text ∧ text.length ≤ 128

instance (text : List UInt8) : Decidable (Short text) :=
  inferInstanceAs (Decidable (_ ∧ _))

theorem Short.stripCr {text : List UInt8} (hshort : Short text) : stripCr text = text :=
  stripCr_of_last (getLast_ne_of_not_mem hshort.2.1)

theorem Short.length_le {text : List UInt8} (hshort : Short text) :
    text.length ≤ maxFrameBytes := by
  have hlength := hshort.2.2
  rw [maxFrameBytes]
  omega

theorem Short.fits {text : List UInt8} (hshort : Short text) : Fits text := by
  rw [Fits, hshort.stripCr]
  exact hshort.length_le

/-- A few short lines fit one read of a client. -/
theorem glue_short {lines : List (List UInt8)} (hlines : lines.length ≤ 2)
    (hshort : ∀ line ∈ lines, Short line) :
    (Lines.glue newline lines []).length ≤ 8192 := by
  have hlength : ∀ lines : List (List UInt8), (∀ line ∈ lines, Short line) →
      (Lines.glue newline lines []).length ≤ 129 * lines.length := by
    intro lines hshort
    induction lines with
    | nil => exact Nat.le_refl _
    | cons line lines ih =>
        rw [List.forall_mem_cons] at hshort
        have hline := hshort.1.2.2
        have htail := ih hshort.2
        rw [Lines.glue, List.append_nil] at htail ⊢
        rw [List.flatMap_cons, List.length_append, List.length_append, List.length_singleton,
          List.length_cons]
        omega
  have hbound := hlength lines hshort
  omega

theorem Serde.single_short [DecidableEq A] [HasPayloads A] {value : A}
    {json : List UInt8} (hshort : Short json) : (single value json).Lawful :=
  single_lawful hshort.1 (getLast_ne_of_not_mem hshort.2.1)

def pingRequest : Request := ⟨1, .ping⟩

def pingText : List UInt8 := textBytes "\x7b\"id\":1,\"command\":\x7b\"type\":\"ping\"\x7d\x7d"

def unsupportedText : List UInt8 :=
  textBytes "\x7b\"type\":\"notification\",\"value\":\x7b\"type\":\"unsupported\"\x7d\x7d"

theorem pingText_short : Short pingText := by
  rw [show pingText = _ from textBytes_ofList _]
  decide

theorem unsupportedText_short : Short unsupportedText := by
  rw [show unsupportedText = _ from textBytes_ofList _]
  decide

theorem pingRequest_lawful : (Serde.single pingRequest pingText).Lawful :=
  Serde.single_short pingText_short

theorem unsupported_lawful :
    (Serde.single (ServerMessage.notification .unsupported) unsupportedText).Lawful :=
  Serde.single_short unsupportedText_short

theorem framing_transparent_cut :
    (returned (pushAll {} [pingText.take 20, pingText.drop 20 ++ [newline]]).1).map
        (decodeFrame (.single pingRequest pingText)) = [.ok pingRequest] := by
  have hping : encodeFrame (.single pingRequest pingText) pingRequest =
      .ok (pingText ++ [newline]) :=
    encodeFrame_eq_ok.mpr ⟨pingText, by simp [Serde.single], pingText_short.length_le, rfl⟩
  exact ((framing_transparent pingRequest_lawful unsupported_lawful).1 [pingRequest]
    [pingText ++ [newline]] (.cons hping .nil) _ (by simp [← List.append_assoc])).2.1

end Ipc

end Wiiland
