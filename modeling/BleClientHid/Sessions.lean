import BleClientHid.BootReportDecoder
import BleClientHid.HidParser.Decode
import BleClientHid.Lib.Calls

/-! # Sessions of the decoders

A report map and a boot decoder as objects that take call after call.
-/

namespace BleClientHid

open Lib HidParser

/-! ## Calls -/

/-- What a call hands back. The decoder writes no status when it has no pointer for it. -/
structure Answer where
  values : List HIDReportItemValue := []
  recognized : Bool := false
  status : Option HIDDecodeStatus := none
  deriving DecidableEq, Repr

def Answer.Decoded (a : Answer) : Prop := a.status = some .exact ∨ a.status = some .long

instance (a : Answer) : Decidable a.Decoded := inferInstanceAs (Decidable (_ ∨ _))

inductive MapCall where
  | parse (source : HIDReportSource) (data : Buffer)
  | resetRuntimeState

def callMap (m : HIDReportMap) : MapCall → HIDReportMap × Answer
  | .parse source data =>
    let outcome := parse m source data
    (outcome.map,
      { values := outcome.values
        recognized := outcome.recognized
        status := some outcome.status })
  | .resetRuntimeState => (m.resetRuntimeState, {})

inductive DecoderCall where
  | decode (source : HIDReportSource) (data : Buffer)
  | decodeWithoutStatus (source : HIDReportSource) (data : Buffer)
  | reset

def callDecoder (d : HIDBootReportDecoder) : DecoderCall → HIDBootReportDecoder × Answer
  | .decode source data =>
    let outcome := BootReportDecoder.decode d source data
    (outcome.decoder,
      { values := outcome.values
        status := some outcome.status })
  | .decodeWithoutStatus _ _ => (d, {})
  | .reset => (BootReportDecoder.reset d, {})

/-- Which report is decoded, if any, does not depend on what is remembered. -/
theorem parse_cases (m : HIDReportMap) (source : HIDReportSource) (data : List UInt8) :
    (∃ recognized status, ∀ runtime, parse { m with runtime } source (.bytes data) =
      { map := { m with runtime }, recognized, status }) ∨
    ∃ r status, m.findReport .input (selectedReportId source) = some r ∧
      ∀ runtime, parse { m with runtime } source (.bytes data) =
        { map := (parseInput { m with runtime } r data).1
          values := (parseInput { m with runtime } r data).2.map fun value =>
            { value with characteristicHandle := source.characteristicHandle }
          recognized := true
          status } := by
  have hfind : ∀ runtime, HIDReportMap.findReport { m with runtime } .input (selectedReportId source) =
      m.findReport .input (selectedReportId source) := fun _ => rfl
  simp only [parse, hfind]
  split
  · exact .inl ⟨_, _, fun _ => rfl⟩
  · split
    · exact .inl ⟨_, _, fun _ => rfl⟩
    · split
      · exact .inl ⟨_, _, fun _ => rfl⟩
      · rename_i r hr
        split
        · exact .inl ⟨_, _, fun _ => rfl⟩
        · exact .inr ⟨r, _, hr, fun _ => rfl⟩

theorem parseBytes_map (m : HIDReportMap) (source : HIDReportSource) (data : List UInt8) :
    ∃ runtime, (parse m source (.bytes data)).map = { m with runtime } := by
  rcases parse_cases m source data with ⟨recognized, status, hsame⟩ | ⟨r, status, -, hinput⟩
  · exact ⟨m.runtime, congrArg ParseOutcome.map (hsame m.runtime)⟩
  · exact ⟨_, congrArg ParseOutcome.map (hinput m.runtime)⟩

theorem parse_map (m : HIDReportMap) (source : HIDReportSource) (data : Buffer) :
    ∃ runtime, (parse m source data).map = { m with runtime } := by
  cases data with
  | null n =>
    cases n with
    | zero => exact parseBytes_map m source []
    | succ n => exact ⟨m.runtime, rfl⟩
  | bytes bytes => exact parseBytes_map m source bytes

theorem stateAfter_callMap (m : HIDReportMap) (calls : List MapCall) :
    ∃ runtime, stateAfter callMap m calls = { m with runtime } := by
  refine stateAfter_induct (I := fun m' => ∃ runtime, m' = { m with runtime }) ?_ ⟨m.runtime, rfl⟩ calls
  rintro _ call ⟨runtime, rfl⟩
  cases call with
  | parse source data => exact parse_map _ source data
  | resetRuntimeState => exact ⟨_, rfl⟩

/-! ## Rejected calls -/

theorem callMap_rejected {m : HIDReportMap} {source : HIDReportSource} {data : Buffer}
    (h : ¬ (callMap m (.parse source data)).2.Decoded) :
    (callMap m (.parse source data)).2.values = [] ∧ (callMap m (.parse source data)).1 = m := by
  simp only [Answer.Decoded, callMap, Option.some_inj, not_or] at h
  exact parse_rejected m source data h.1 h.2

theorem callDecoder_rejected {d : HIDBootReportDecoder} {call : DecoderCall} (hcall : call ≠ .reset)
    (h : ¬ (callDecoder d call).2.Decoded) :
    (callDecoder d call).2.values = [] ∧ (callDecoder d call).1 = d := by
  cases call with
  | decode source data =>
    simp only [Answer.Decoded, callDecoder, Option.some_inj, not_or] at h
    exact BootReportDecoder.decode_rejected d source data h.1 h.2
  | decodeWithoutStatus => exact ⟨rfl, rfl⟩
  | reset => exact absurd rfl hcall

/-- Whatever was called before: a call of `parse` or `decode` that is not answered EXACT or LONG
yields no value, and later calls are answered as if it had not been made. -/
theorem rejected_no_trace :
    (∀ (m : HIDReportMap) (before : List MapCall) (source : HIDReportSource) (data : Buffer),
      let m' := stateAfter callMap m before
      let out := callMap m' (.parse source data)
      ¬ out.2.Decoded → out.2.values = [] ∧ Indistinguishable callMap out.1 m') ∧
    (∀ (d : HIDBootReportDecoder) (before : List DecoderCall) (call : DecoderCall), call ≠ .reset →
      let d' := stateAfter callDecoder d before
      let out := callDecoder d' call
      ¬ out.2.Decoded → out.2.values = [] ∧ Indistinguishable callDecoder out.1 d') := by
  constructor
  · intro m before source data m' out h
    obtain ⟨hvalues, hstate⟩ := callMap_rejected h
    exact ⟨hvalues, .of_eq hstate⟩
  · intro d before call hcall d' out h
    obtain ⟨hvalues, hstate⟩ := callDecoder_rejected hcall h
    exact ⟨hvalues, .of_eq hstate⟩

/-- One of two key slots, and a mouse report that is cut off. -/
theorem rejected_no_trace_short :
    (∃ m, parseReportMapData (.bytes keyboardDescriptor) = some m ∧
      let m' := stateAfter callMap m [.parse {} (.bytes [0x04, 0x00])]
      let out := callMap m' (.parse {} (.bytes [0x00]))
      out.2.status = some .short ∧ out.2.values = [] ∧ Indistinguishable callMap out.1 m') ∧
    let source : HIDReportSource := { characteristicHandle := 10, characteristicUuid := 0x2A33 }
    let d := stateAfter callDecoder {} [.decode source (.bytes [0x01, 0x00, 0x00])]
    let out := callDecoder d (.decode source (.bytes [0x00, 0x00]))
    out.2.status = some .short ∧ out.2.values = [] ∧ Indistinguishable callDecoder out.1 d := by
  refine ⟨?_, by decide, rejected_no_trace.2 {} _ _ (by simp) (by decide)⟩
  have hstatus : ∃ m ∈ parseReportMapData (.bytes keyboardDescriptor),
      (callMap (stateAfter callMap m [.parse {} (.bytes [0x04, 0x00])])
        (.parse {} (.bytes [0x00]))).2.status = some .short := by
    decide +kernel
  obtain ⟨m, hm, hshort⟩ := hstatus
  refine ⟨m, hm, hshort, rejected_no_trace.1 m _ _ _ ?_⟩
  rintro (h | h) <;> rw [hshort] at h <;> cases h

end BleClientHid
