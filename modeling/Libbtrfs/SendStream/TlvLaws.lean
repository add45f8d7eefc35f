import Libbtrfs.SendStream.Tlv
import Mathlib.Data.List.Basic
import Mathlib.Data.List.Perm.Basic

/-! What the attribute loops compute, in terms of the complete TLVs that a payload splits into. -/

namespace Libbtrfs

/-- One type-length-value triple, whose length fits its two-byte field. -/
structure Tlv where
  type : UInt16
  value : Bytes
  fits : value.length < 65536

namespace Tlv

/-- The bytes of a triple: type, length and value. -/
def bytes (tlv : Tlv) : Bytes :=
  leBytes 2 tlv.type.toNat ++ (leBytes 2 tlv.value.length ++ tlv.value)

end Tlv

/-- The one complete triple at the front of a payload, with what follows it. -/
def takeTlv : Bytes → Option (Tlv × Bytes)
  | tlo :: thi :: llo :: lhi :: rest =>
    if (u16FromLeBytes llo lhi).toNat ≤ rest.length then
      some (⟨u16FromLeBytes tlo thi, rest.take (u16FromLeBytes llo lhi).toNat,
        Nat.lt_of_le_of_lt (List.length_take_le _ _) (u16FromLeBytes llo lhi).toNat_lt⟩,
        rest.drop (u16FromLeBytes llo lhi).toNat)
    else none
  | _ => none

/-- Two bytes of a number are read as that number. -/
theorem u16FromLeBytes_leBytes (value : UInt16) :
    ∃ low high, leBytes 2 value.toNat = [low, high] ∧ u16FromLeBytes low high = value := by
  -- A two-byte width writes two bytes, which stand for the value again.
  refine ⟨_, _, rfl, ?_⟩
  have back : leNat (leBytes 2 value.toNat) = value.toNat :=
    leNat_leBytes (show value.toNat < 256 ^ 2 from value.toNat_lt)
  simpa [u16FromLeBytes, leBytes] using congrArg UInt16.ofNat back

/-- A length that fits its field is read as that length. -/
theorem u16FromLeBytes_length {length : Nat} (fits : length < 65536) :
    ∃ low high, leBytes 2 length = [low, high] ∧ (u16FromLeBytes low high).toNat = length := by
  -- As a sixteen-bit number the length loses nothing.
  obtain ⟨low, high, written, value⟩ := u16FromLeBytes_leBytes (UInt16.ofNat length)
  have same : (UInt16.ofNat length).toNat = length := UInt16.toNat_ofNat_of_lt' fits
  rw [same] at written
  exact ⟨low, high, written, by rw [value, same]⟩

/-- The bytes that were read as a number are the bytes of that number. -/
theorem leBytes_u16FromLeBytes (low high : UInt8) :
    leBytes 2 (u16FromLeBytes low high).toNat = [low, high] := by
  -- Two bytes stand for less than the sixteen-bit limit, so nothing wraps.
  have small : leNat [low, high] < 65536 := by simpa using leNat_lt [low, high]
  have whole : (u16FromLeBytes low high).toNat = leNat [low, high] :=
    UInt16.toNat_ofNat_of_lt' small
  rw [whole]
  exact leBytes_leNat [low, high]

/-- A triple in front of anything is taken off as it was written. -/
theorem takeTlv_bytes (tlv : Tlv) (rest : Bytes) :
    takeTlv (tlv.bytes ++ rest) = some (tlv, rest) := by
  -- The header gives back type and length, and the length cuts the value off the rest.
  obtain ⟨tlo, thi, typeBytes, type⟩ := u16FromLeBytes_leBytes tlv.type
  obtain ⟨llo, lhi, lengthBytes, length⟩ := u16FromLeBytes_length tlv.fits
  simp only [Tlv.bytes, typeBytes, lengthBytes, List.cons_append, List.nil_append, takeTlv]
  simp [length, type]

/-- What was taken off the front is the bytes of the triple. -/
theorem takeTlv_some {payload rest : Bytes} {tlv : Tlv}
    (taken : takeTlv payload = some (tlv, rest)) : payload = tlv.bytes ++ rest := by
  -- Only the arm with a whole header and a whole value answers.
  match payload with
  | [] | [_] | [_, _] | [_, _, _] => simp [takeTlv] at taken
  | tlo :: thi :: llo :: lhi :: tail =>
    simp only [takeTlv] at taken
    split at taken
    · rename_i inside
      cases taken
      have length : (tail.take (u16FromLeBytes llo lhi).toNat).length =
          (u16FromLeBytes llo lhi).toNat := by
        rw [List.length_take]
        omega
      simp only [Tlv.bytes, length, leBytes_u16FromLeBytes, List.cons_append, List.nil_append,
        List.take_append_drop]
    · cases taken

/-- Taking a triple off makes the payload shorter. -/
theorem takeTlv_shorter {payload rest : Bytes} {tlv : Tlv}
    (taken : takeTlv payload = some (tlv, rest)) : rest.length < payload.length := by
  -- The header alone is four bytes.
  rw [takeTlv_some taken]
  simp only [Tlv.bytes, List.length_append, leBytes_length]
  omega

/-- The complete triples at the front of a payload up to one that stops the split, and the rest. -/
def splitTlvs (stops : UInt16 → Bool) (payload : Bytes) : List Tlv × Bytes :=
  match _ : takeTlv payload with
  | some (tlv, rest) =>
    if stops tlv.type then ([], payload)
    else (tlv :: (splitTlvs stops rest).1, (splitTlvs stops rest).2)
  | none => ([], payload)
termination_by payload.length
decreasing_by all_goals exact takeTlv_shorter ‹takeTlv payload = some _›

/-- A split that cannot take another triple leaves the payload whole. -/
theorem splitTlvs_none {stops : UInt16 → Bool} {payload : Bytes}
    (incomplete : takeTlv payload = none) : splitTlvs stops payload = ([], payload) := by
  -- The loop ends where it began.
  rw [splitTlvs, incomplete]

/-- A split that takes a triple goes on behind it. -/
theorem splitTlvs_some {stops : UInt16 → Bool} {payload rest : Bytes} {tlv : Tlv}
    (taken : takeTlv payload = some (tlv, rest)) (goes : stops tlv.type = false) :
    splitTlvs stops payload = (tlv :: (splitTlvs stops rest).1, (splitTlvs stops rest).2) := by
  -- The TLV that is taken is not one to stop at.
  rw [splitTlvs, taken]
  simp [goes]

/-- A split stops in front of a triple of the excluded kind. -/
theorem splitTlvs_stop {stops : UInt16 → Bool} {payload rest : Bytes} {tlv : Tlv}
    (taken : takeTlv payload = some (tlv, rest)) (stop : stops tlv.type = true) :
    splitTlvs stops payload = ([], payload) := by
  -- The TLV that is taken is one to stop at.
  rw [splitTlvs, taken]
  simp [stop]

/-- The bytes of a sequence of triples. -/
def tlvBytes (tlvs : List Tlv) : Bytes := tlvs.flatMap Tlv.bytes

/-- A sequence of triples in front of a payload is split off as it was written. -/
theorem splitTlvs_append {stops : UInt16 → Bool} {tlvs : List Tlv} (rest : Bytes)
    (goes : ∀ tlv ∈ tlvs, stops tlv.type = false) :
    splitTlvs stops (tlvBytes tlvs ++ rest) =
      (tlvs ++ (splitTlvs stops rest).1, (splitTlvs stops rest).2) := by
  -- Each triple is taken off in turn, and the split goes on behind it.
  induction tlvs with
  | nil => rfl
  | cons tlv tlvs ih =>
    have taken := takeTlv_bytes tlv (tlvBytes tlvs ++ rest)
    have shape : tlvBytes (tlv :: tlvs) ++ rest = tlv.bytes ++ (tlvBytes tlvs ++ rest) := by
      simp [tlvBytes]
    rw [shape, splitTlvs_some taken (goes tlv (by simp)),
      ih fun other member => goes other (by simp [member])]
    rfl

/-- The triples and the rest of a split are the payload. -/
theorem splitTlvs_bytes (stops : UInt16 → Bool) (payload : Bytes) :
    payload = tlvBytes (splitTlvs stops payload).1 ++ (splitTlvs stops payload).2 := by
  -- Every turn of the split moves one triple from the payload to the list.
  induction payload using splitTlvs.induct stops with
  | case1 payload tlv rest taken stop => rw [splitTlvs_stop taken stop]; rfl
  | case2 payload tlv rest taken goes ih =>
    rw [splitTlvs_some taken (by simpa using goes)]
    simp only [tlvBytes, List.flatMap_cons, List.append_assoc] at ih ⊢
    rw [← ih]
    exact takeTlv_some taken
  | case3 payload incomplete => rw [splitTlvs_none incomplete]; rfl

/-- The triples of a split are none to stop at. -/
theorem splitTlvs_goes (stops : UInt16 → Bool) (payload : Bytes) :
    ∀ tlv ∈ (splitTlvs stops payload).1, stops tlv.type = false := by
  -- The induction is on the length of the payload, which every triple shortens.
  induction left : payload.length using Nat.strongRecOn generalizing payload with
  | ind remaining ih =>
    intro tlv member
    cases taken : takeTlv payload with
    | none =>
      rw [splitTlvs_none taken] at member
      cases member
    | some pair =>
      obtain ⟨first, rest⟩ := pair
      by_cases stopped : stops first.type = true
      · rw [splitTlvs_stop taken stopped] at member
        cases member
      · have goes : stops first.type = false := Bool.not_eq_true _ ▸ stopped
        rw [splitTlvs_some taken goes] at member
        rcases List.mem_cons.mp member with rfl | later
        · exact goes
        · exact ih rest.length (left ▸ takeTlv_shorter taken) rest rfl tlv later

/-- Assigning a sequence of triples one after the other. -/
def Schema.assignAll (schema : Schema) : List Tlv → schema.Slots → Outcome schema.Slots
  | [], slots => .ok slots
  | tlv :: rest, slots => do
    let slots ← schema.assign tlv.type tlv.value slots
    schema.assignAll rest slots

/-- What `parse_tlv` makes of a payload: its complete triples, and then fewer than four bytes. -/
def Schema.scan (schema : Schema) (payload : Bytes) (slots : schema.Slots) :
    Outcome schema.Slots := do
  let slots ← schema.assignAll (splitTlvs (fun _ => false) payload).1 slots
  if (splitTlvs (fun _ => false) payload).2.length < 4 then .ok slots
  else .error (receiveError "send stream is trucated")

/-- A payload without a complete triple is read to its end, if that end holds no header. -/
theorem Schema.scan_none (schema : Schema) {payload : Bytes} (slots : schema.Slots)
    (incomplete : takeTlv payload = none) :
    schema.scan payload slots =
      if payload.length < 4 then .ok slots
      else .error (receiveError "send stream is trucated") := by
  -- Where no TLV can be taken there is nothing to assign.
  rw [Schema.scan, splitTlvs_none incomplete]
  rfl

/-- A payload with a complete triple at its front is scanned on behind it. -/
theorem Schema.scan_some (schema : Schema) {payload rest : Bytes} {tlv : Tlv}
    (slots : schema.Slots) (taken : takeTlv payload = some (tlv, rest)) :
    schema.scan payload slots =
      (schema.assign tlv.type tlv.value slots >>= fun slots => schema.scan rest slots) := by
  -- The first turn of the assignment is the triple in front, and the check is on the same end.
  rw [Schema.scan, splitTlvs_some taken rfl]
  simp only [Schema.assignAll, bind_assoc]
  rfl

/-- A triple is taken off a header and as much as that says. -/
private theorem takeTlv_whole (tlo thi llo lhi : UInt8) {tail : Bytes}
    (whole : (u16FromLeBytes llo lhi).toNat ≤ tail.length) :
    ∃ tlv, takeTlv (tlo :: thi :: llo :: lhi :: tail) =
        some (tlv, tail.drop (u16FromLeBytes llo lhi).toNat) ∧
      tlv.type = u16FromLeBytes tlo thi ∧
      tlv.value = tail.take (u16FromLeBytes llo lhi).toNat := by
  -- The value is there as far as its length says.
  rw [takeTlv, if_pos whole]
  exact ⟨_, rfl, rfl, rfl⟩

/-- Behind a header the loop goes on with its value. -/
private theorem tlvLoop_header {schema : Schema} {payload : Bytes} {start stop : Nat}
    {slots : schema.Slots} {tlo thi llo lhi : UInt8}
    (header : getRange payload start stop = some [tlo, thi, llo, lhi]) :
    tlvLoop schema payload start stop slots =
      match getRange payload stop (stop + (u16FromLeBytes llo lhi).toNat) with
      | some val => do
        let slots ← schema.assign (u16FromLeBytes tlo thi) val slots
        tlvLoop schema payload (stop + (u16FromLeBytes llo lhi).toNat)
          (stop + (u16FromLeBytes llo lhi).toNat + 4) slots
      | none => .error (receiveError "send stream is trucated") := by
  -- The four bytes of the header are what the loop looks for first.
  rw [tlvLoop]
  split
  · rename_i found
    rw [header] at found
    cases found
    rfl
  · rename_i missing
    exact absurd header (missing _ _ _ _)

/-- Behind the payload the loop is over. -/
private theorem tlvLoop_end {schema : Schema} {payload : Bytes} {start stop : Nat}
    {slots : schema.Slots} (past : getRange payload start stop = none) :
    tlvLoop schema payload start stop slots = .ok slots := by
  -- Without the bytes of a header the loop is over.
  rw [tlvLoop]
  split
  · rename_i found
    rw [past] at found
    cases found
  · rfl

/-- A payload that is long enough begins with four bytes. -/
private theorem short_or_header (payload : Bytes) :
    payload.length < 4 ∨
      ∃ tlo thi llo lhi tail, payload = tlo :: thi :: llo :: lhi :: tail := by
  -- Four bytes are what a header needs.
  match payload with
  | [] | [_] | [_, _] | [_, _, _] => left; simp
  | tlo :: thi :: llo :: lhi :: tail => exact Or.inr ⟨tlo, thi, llo, lhi, tail, rfl⟩

/-- No triple is taken off less than a header. -/
private theorem takeTlv_short {payload : Bytes} (short : payload.length < 4) :
    takeTlv payload = none := by
  -- Less than four bytes have no header.
  match payload with
  | [] | [_] | [_, _] | [_, _, _] => rfl
  | _ :: _ :: _ :: _ :: _ => simp at short; omega

/-- Behind the header of a triple its value is found, and behind the value what is left. -/
private theorem value_window {payload tail : Bytes} {start length : Nat} (first : Nat)
    (header : Bytes) (inside : start ≤ payload.length) (rest : payload.drop start = header ++ tail)
    (whole : length ≤ tail.length) (starts : start + header.length = first) :
    getRange payload first (first + length) = some (tail.take length) ∧
      payload.drop (first + length) = tail.drop length := by
  -- The tail is the value and what comes behind it.
  have behind : payload.drop first = tail := by
    rw [← starts, ← List.drop_drop, rest, List.drop_left]
  constructor
  · rw [← List.take_append_drop length tail] at rest
    exact getRange_at header (tail.take length) inside rest starts
      (by rw [List.length_take_of_le whole])
  · rw [← List.drop_drop, behind]

/-- The loop of `parse_tlv` at a position scans what is left of the payload from there. -/
theorem tlvLoop_eq (schema : Schema) (payload : Bytes) :
    ∀ start slots, start ≤ payload.length →
      tlvLoop schema payload start (start + 4) slots = schema.scan (payload.drop start) slots := by
  intro start
  -- The induction is on what is left behind the position, which every triple shortens.
  induction left : payload.length - start using Nat.strongRecOn generalizing start with
  | ind left ih =>
    intro slots inside
    rcases short_or_header (payload.drop start) with short | ⟨tlo, thi, llo, lhi, tail, rest_eq⟩
    · -- Fewer than four bytes hold no header, and no triple either.
      have past : payload.length < start + 4 := by
        rw [List.length_drop] at short
        omega
      rw [tlvLoop_end (getRange_past past), schema.scan_none slots (takeTlv_short short),
        if_pos short]
    · have header : getRange payload start (start + 4) = some [tlo, thi, llo, lhi] :=
        getRange_at [] [tlo, thi, llo, lhi] inside rest_eq rfl rfl
      have tailLength : payload.length = start + 4 + tail.length := by
        have := congrArg List.length rest_eq
        simp only [List.length_drop, List.length_cons] at this
        omega
      rw [tlvLoop_header header]
      by_cases whole : (u16FromLeBytes llo lhi).toNat ≤ tail.length
      · -- The value is complete: it is assigned, and the loop goes on behind it.
        obtain ⟨tlv, taken, type, value⟩ := takeTlv_whole tlo thi llo lhi whole
        rw [← rest_eq] at taken
        generalize (u16FromLeBytes llo lhi).toNat = length at *
        obtain ⟨found, behind⟩ := value_window (start + 4) [tlo, thi, llo, lhi] inside
          rest_eq whole rfl
        rw [← value] at found
        rw [schema.scan_some slots taken, found, type]
        simp only
        congr 1
        funext slots
        rw [ih _ (by omega) (start + 4 + length) rfl slots (by omega), behind]
      · -- The value overruns the payload, so no triple is complete at this position.
        have overrun : getRange payload (start + 4)
            (start + 4 + (u16FromLeBytes llo lhi).toNat) = none := getRange_past (by omega)
        have incomplete : takeTlv (payload.drop start) = none := by
          rw [rest_eq, takeTlv, if_neg whole]
        rw [schema.scan_none slots incomplete, overrun, if_neg (by
          rw [rest_eq]
          simp only [List.length_cons]
          omega)]

/-- The split of a version 2 data payload stops where its data begins. -/
def isData (type : UInt16) : Bool := type == Attr.data.code

/-- What `parse_tlv_v2` makes of the end of a payload, where no complete triple is left. -/
def dataEnd : Bytes → Outcome (Option Bytes)
  | lo :: hi :: tail =>
    if u16FromLeBytes lo hi = Attr.data.code then .ok (some tail)
    -- A type without the two bytes of its length is the one case the loop does not expect.
    else if tail.length < 2 then .error (.panic "parsing write tlv")
    else .ok none
  | _ => .ok none

/-- What `parse_tlv_v2` makes of a payload: its triples before the data, and then the end. -/
def Schema.scanData (schema : Schema) (payload : Bytes) (slots : schema.Slots) :
    Outcome (schema.Slots × Option Bytes) := do
  let slots ← schema.assignAll (splitTlvs isData payload).1 slots
  let data ← dataEnd (splitTlvs isData payload).2
  return (slots, data)

/-- Where no triple is complete, only the data can follow. -/
private theorem scanData_none (schema : Schema) {payload : Bytes} (slots : schema.Slots)
    (incomplete : takeTlv payload = none) :
    schema.scanData payload slots = (dataEnd payload).map fun data => (slots, data) := by
  -- Where no TLV can be taken there is nothing to assign.
  rw [Schema.scanData, splitTlvs_none incomplete]
  rfl

/-- The number of the data ends the scan. -/
private theorem scanData_stop (schema : Schema) {lo hi : UInt8} {tail : Bytes}
    (slots : schema.Slots) (data : u16FromLeBytes lo hi = Attr.data.code) :
    schema.scanData (lo :: hi :: tail) slots = .ok (slots, some tail) := by
  -- Whether or not the bytes behind the type look like a triple, the split stops here.
  have ends : dataEnd (lo :: hi :: tail) = .ok (some tail) := by rw [dataEnd, if_pos data]
  cases taken : takeTlv (lo :: hi :: tail) with
  | none => rw [scanData_none schema slots taken, ends]; rfl
  | some pair =>
    obtain ⟨tlv, rest⟩ := pair
    have type : tlv.type = u16FromLeBytes lo hi := by
      match tail with
      | [] | [_] => simp [takeTlv] at taken
      | llo :: lhi :: rest =>
        simp only [takeTlv] at taken
        split at taken
        · cases taken; rfl
        · cases taken
    have stops : isData tlv.type = true := by simp [isData, type, data]
    rw [Schema.scanData, splitTlvs_stop taken stops, ends]
    rfl

/-- Any other triple is assigned to its slot. -/
private theorem scanData_some (schema : Schema) {payload rest : Bytes} {tlv : Tlv}
    (slots : schema.Slots) (taken : takeTlv payload = some (tlv, rest))
    (other : tlv.type ≠ Attr.data.code) :
    schema.scanData payload slots =
      (schema.assign tlv.type tlv.value slots >>= fun slots => schema.scanData rest slots) := by
  -- The TLV that is taken is not the data.
  rw [Schema.scanData, splitTlvs_some taken (by simpa [isData] using other)]
  simp only [Schema.assignAll, bind_assoc]
  rfl

/-- What the loop does is decided by the attribute that it finds. -/
private theorem dataLoop_type {schema : Schema} {payload : Bytes} {start stop : Nat}
    {slots : schema.Slots} {lo hi : UInt8} (found : getRange payload start stop = some [lo, hi]) :
    dataLoop schema payload start stop slots =
      if u16FromLeBytes lo hi = Attr.data.code then
        .ok (slots, getRange payload stop payload.length)
      else
        match getRange payload (start + 2) (stop + 2) with
        | some [llo, lhi] =>
          match getRange payload (stop + 2) (stop + 2 + (u16FromLeBytes llo lhi).toNat) with
          | some val => do
            let slots ← schema.assign (u16FromLeBytes lo hi) val slots
            dataLoop schema payload (stop + 2 + (u16FromLeBytes llo lhi).toNat)
              (stop + 2 + (u16FromLeBytes llo lhi).toNat + 2) slots
          | none => dataLoop schema payload (stop + 2 + (u16FromLeBytes llo lhi).toNat)
              (stop + 2 + (u16FromLeBytes llo lhi).toNat + 2) slots
        | _ => .error (.panic "parsing write tlv") := by
  -- The two bytes of the type are what the loop looks for first.
  rw [dataLoop]
  split
  · rename_i again
    rw [found] at again
    cases again
    rfl
  · rename_i missing
    exact absurd found (missing _ _)

/-- Behind the payload the loop is over, without any data. -/
private theorem dataLoop_end {schema : Schema} {payload : Bytes} {start stop : Nat}
    {slots : schema.Slots} (past : getRange payload start stop = none) :
    dataLoop schema payload start stop slots = .ok (slots, none) := by
  -- Without the bytes of a type the loop is over.
  rw [dataLoop]
  split
  · rename_i found
    rw [past] at found
    cases found
  · rfl

/-- The loop of `parse_tlv_v2` at a position scans what is left of the payload from there. -/
theorem dataLoop_eq (schema : Schema) (payload : Bytes) :
    ∀ start slots, start ≤ payload.length →
      dataLoop schema payload start (start + 2) slots =
        schema.scanData (payload.drop start) slots := by
  intro start
  -- The induction is on what is left behind the position, which every triple shortens.
  induction left : payload.length - start using Nat.strongRecOn generalizing start with
  | ind left ih =>
    intro slots inside
    have restLength : (payload.drop start).length = payload.length - start := List.length_drop
    rcases rest_eq : payload.drop start with _ | ⟨lo, _ | ⟨hi, tail⟩⟩
    · -- Fewer than two bytes hold no type, and the loop ends without data.
      rw [dataLoop_end (getRange_past (by rw [rest_eq] at restLength; simp at restLength; omega)),
        scanData_none schema slots rfl]
      rfl
    · rw [dataLoop_end (getRange_past (by rw [rest_eq] at restLength; simp at restLength; omega)),
        scanData_none schema slots rfl]
      rfl
    · rw [rest_eq] at restLength
      simp only [List.length_cons] at restLength
      have found : getRange payload start (start + 2) = some [lo, hi] :=
        getRange_at [] [lo, hi] inside rest_eq rfl rfl
      rw [dataLoop_type found]
      by_cases data : u16FromLeBytes lo hi = Attr.data.code
      · -- The data takes everything behind its type.
        have all : getRange payload (start + 2) payload.length = some tail := by
          have behind : payload.drop (start + 2) = tail := by
            rw [← List.drop_drop, rest_eq]
            rfl
          simp only [getRange, behind]
          rw [if_pos (by omega), List.take_of_length_le (by omega)]
        rw [if_pos data, scanData_stop schema slots data, all]
      · rw [if_neg data]
        rcases tail with _ | ⟨llo, _ | ⟨lhi, tail⟩⟩
        · -- The length is cut, which is where the loop panics.
          rw [getRange_past (by simp at restLength; omega), scanData_none schema slots rfl,
            dataEnd, if_neg data, if_pos (by simp)]
          rfl
        · rw [getRange_past (by simp at restLength; omega), scanData_none schema slots rfl,
            dataEnd, if_neg data, if_pos (by simp)]
          rfl
        · simp only [List.length_cons] at restLength
          have lengthFound : getRange payload (start + 2) (start + 2 + 2) = some [llo, lhi] :=
            getRange_at [lo, hi] [llo, lhi] inside rest_eq rfl rfl
          rw [lengthFound]
          simp only
          by_cases whole : (u16FromLeBytes llo lhi).toNat ≤ tail.length
          · -- The value is complete: it is assigned, and the loop goes on behind it.
            obtain ⟨tlv, taken, type, value⟩ := takeTlv_whole lo hi llo lhi whole
            generalize (u16FromLeBytes llo lhi).toNat = length at *
            obtain ⟨valueFound, behind⟩ := value_window (start + 2 + 2) [lo, hi, llo, lhi]
              inside rest_eq whole rfl
            rw [← value] at valueFound
            rw [scanData_some schema slots taken (by rwa [type]), valueFound, type]
            simp only
            congr 1
            funext slots
            rw [ih _ (by omega) (start + 2 + 2 + length) rfl slots (by omega), behind]
          · -- The value overruns the payload, and no type is found behind it.
            have overrun : getRange payload (start + 2 + 2)
                (start + 2 + 2 + (u16FromLeBytes llo lhi).toNat) = none :=
              getRange_past (by omega)
            have incomplete : takeTlv (lo :: hi :: llo :: lhi :: tail) = none := by
              rw [takeTlv, if_neg whole]
            rw [overrun]
            simp only
            rw [dataLoop_end (getRange_past (by omega)), scanData_none schema slots incomplete,
              dataEnd, if_neg data, if_neg (by simp)]
            rfl

end Libbtrfs
