import Libbtrfs.SendStream.NoPanic

/-! What the parsers of a command accept: the last value of each attribute, wherever it stands. -/

namespace Libbtrfs

/-- The value of the last triple with a number. -/
def lastValue (code : UInt16) (tlvs : List Tlv) : Option Bytes :=
  (tlvs.filter fun tlv => tlv.type = code).getLast?.map Tlv.value

/-- Behind one more triple the last value is its own, or the one from before. -/
theorem lastValue_snoc (code : UInt16) (tlvs : List Tlv) (tlv : Tlv) :
    lastValue code (tlvs ++ [tlv]) =
      if tlv.type = code then some tlv.value else lastValue code tlvs := by
  -- The triple is the last one of the filtered list, if it is there at all.
  rw [lastValue, List.filter_append, List.filter_singleton]
  by_cases mine : tlv.type = code
  · simp [mine]
  · simp [mine, lastValue]

/-- There is a last value exactly when a triple has the number. -/
theorem lastValue_isSome {code : UInt16} {tlvs : List Tlv} :
    (lastValue code tlvs).isSome ↔ ∃ tlv ∈ tlvs, tlv.type = code := by
  -- A list has a last element when it is not empty.
  rw [lastValue, Option.isSome_map, List.getLast?_isSome, ne_eq, List.filter_eq_nil_iff]
  simp

namespace Schema

/-- Each slot holds the last value of its attribute, as its type reads that, or nothing. -/
def HoldsLast : (schema : Schema) → List Tlv → schema.Slots → Prop
  | [], _, () => True
  | field :: rest, tlvs, (slot, slots) =>
    (lastValue field.attr.code tlvs).map field.type.parse = slot.map .ok ∧
      HoldsLast rest tlvs slots

/-- In front of all triples the slots are empty. -/
theorem holdsLast_empty (schema : Schema) : schema.HoldsLast [] schema.empty := by
  -- The induction is on the schema.
  induction schema with
  | nil => trivial
  | cons field rest ih => exact ⟨rfl, ih⟩

/-- Triples hold one choice of slots only. -/
theorem HoldsLast.unique {schema : Schema} {tlvs : List Tlv} {one other : schema.Slots}
    (first : schema.HoldsLast tlvs one) (second : schema.HoldsLast tlvs other) : one = other := by
  induction schema with
  | nil => rfl
  | cons field rest ih =>
    -- Both slots are what the last value is read as.
    obtain ⟨slot, slots⟩ := one
    obtain ⟨slot', slots'⟩ := other
    have same : slot.map Except.ok = slot'.map (Except.ok (ε := Failure)) :=
      first.1.symm.trans second.1
    rw [ih first.2 second.2, Option.map_injective (fun _ _ => Except.ok.inj) same]

/-- A triple that is foreign to the command changes nothing about the last values. -/
theorem HoldsLast.foreign {schema : Schema} {tlvs : List Tlv} {slots : schema.Slots} {tlv : Tlv}
    (holds : schema.HoldsLast tlvs slots) (foreign : tlv.type ∉ schema.codes) :
    schema.HoldsLast (tlvs ++ [tlv]) slots := by
  induction schema with
  | nil => trivial
  | cons field rest ih =>
    -- Neither the first attribute nor one of the others has the number.
    obtain ⟨slot, slots⟩ := slots
    simp only [codes, List.map_cons, List.mem_cons, not_or] at foreign
    exact ⟨by rw [lastValue_snoc, if_neg foreign.1, holds.1], ih holds.2 foreign.2⟩

/-- The step: a triple that is assigned is the last one of its attribute. -/
theorem HoldsLast.assign {schema : Schema} (distinct : schema.codes.Nodup) {tlvs : List Tlv}
    {slots slots' : schema.Slots} {tlv : Tlv} (holds : schema.HoldsLast tlvs slots)
    (assigned : schema.assign tlv.type tlv.value slots = .ok slots') :
    schema.HoldsLast (tlvs ++ [tlv]) slots' := by
  -- The induction is on the attributes, of which at most one has the number of the triple.
  induction schema with
  | nil => trivial
  | cons field rest ih =>
    obtain ⟨slot, slots⟩ := slots
    simp only [codes, List.map_cons, List.nodup_cons] at distinct
    rw [Schema.assign] at assigned
    by_cases mine : tlv.type = field.attr.code
    · rw [if_pos mine] at assigned
      cases parsed : field.type.parse tlv.value with
      | error failure =>
        rw [parsed] at assigned
        cases assigned
      | ok value =>
        rw [parsed] at assigned
        cases assigned
        refine ⟨?_, holds.2.foreign (mine ▸ distinct.1)⟩
        rw [lastValue_snoc, if_pos mine, Option.map_some, parsed, Option.map_some]
    · rw [if_neg mine] at assigned
      cases others : Schema.assign rest tlv.type tlv.value slots with
      | error failure =>
        rw [others] at assigned
        cases assigned
      | ok later =>
        rw [others] at assigned
        cases assigned
        exact ⟨by rw [lastValue_snoc, if_neg mine, holds.1], ih distinct.2 holds.2 others⟩

/-- The run: what a sequence of triples is assigned to holds the last value of each attribute. -/
theorem HoldsLast.assignAll {schema : Schema} (distinct : schema.codes.Nodup)
    {front tlvs : List Tlv} {slots slots' : schema.Slots} (holds : schema.HoldsLast front slots)
    (assigned : schema.assignAll tlvs slots = .ok slots') :
    schema.HoldsLast (front ++ tlvs) slots' := by
  -- The induction is on the triples, each of which joins those that were assigned.
  induction tlvs generalizing front slots with
  | nil =>
    cases assigned
    rwa [List.append_nil]
  | cons tlv tlvs ih =>
    rw [Schema.assignAll] at assigned
    cases first : schema.assign tlv.type tlv.value slots with
    | error failure =>
      rw [first] at assigned
      cases assigned
    | ok between =>
      rw [first] at assigned
      have later := ih (holds.assign distinct first) assigned
      rwa [List.append_assoc, List.singleton_append] at later

/-- Triples are assigned exactly when their widths are right, and then leave the last values. -/
theorem assignAll_eq_iff {schema : Schema} (distinct : schema.codes.Nodup) (tlvs : List Tlv)
    (slots : schema.Slots) :
    schema.assignAll tlvs schema.empty = .ok slots ↔
      (∀ tlv ∈ tlvs, schema.Accepts tlv) ∧ schema.HoldsLast tlvs slots := by
  constructor
  · intro assigned
    exact ⟨(schema.assignAll_ok_iff distinct tlvs _).mp ⟨slots, assigned⟩,
      schema.holdsLast_empty.assignAll distinct assigned⟩
  · rintro ⟨accepted, holds⟩
    -- Something is assigned, and the last values leave no choice what it is.
    obtain ⟨slots', assigned⟩ := (schema.assignAll_ok_iff distinct tlvs schema.empty).mpr accepted
    rw [assigned, (schema.holdsLast_empty.assignAll distinct assigned).unique holds]

/-- All values are there exactly when every slot is the one of its value. -/
theorem complete_eq_some {schema : Schema} {slots : schema.Slots} {values : schema.Values} :
    schema.complete slots = some values ↔ slots = schema.present values := by
  constructor
  · intro complete
    induction schema with
    | nil => rfl
    | cons field rest ih =>
      -- A slot that is missing would have ended the match.
      obtain ⟨slot, slots⟩ := slots
      cases slot with
      | none => cases complete
      | some value =>
        cases others : Schema.complete rest slots with
        | none =>
          rw [Schema.complete, others] at complete
          cases complete
        | some rest_values =>
          rw [Schema.complete, others] at complete
          cases complete
          rw [present, ih others]
  · rintro rfl
    exact schema.complete_present values

/-- The last values fill every slot exactly when every attribute occurs. -/
theorem HoldsLast.complete_iff {schema : Schema} {tlvs : List Tlv} {slots : schema.Slots}
    (holds : schema.HoldsLast tlvs slots) :
    (∃ values, slots = schema.present values) ↔
      ∀ code ∈ schema.codes, ∃ tlv ∈ tlvs, tlv.type = code := by
  induction schema with
  | nil => exact iff_of_true ⟨(), rfl⟩ fun code known => absurd known List.not_mem_nil
  | cons field rest ih =>
    obtain ⟨slot, slots⟩ := slots
    obtain ⟨first, others⟩ := holds
    -- The first slot is filled when there is a last value for it.
    have filled : (∃ value, slot = some value) ↔ ∃ tlv ∈ tlvs, tlv.type = field.attr.code := by
      have same := congrArg Option.isSome first
      rw [Option.isSome_map, Option.isSome_map] at same
      rw [← lastValue_isSome, same, Option.isSome_iff_exists]
    simp only [codes, List.map_cons, List.forall_mem_cons]
    rw [← filled, ← codes, ← ih others]
    constructor
    · rintro ⟨⟨value, values⟩, same⟩
      cases same
      exact ⟨⟨value, rfl⟩, values, rfl⟩
    · rintro ⟨⟨value, rfl⟩, values, rfl⟩
      exact ⟨(value, values), rfl⟩

/-- The complete triples of a payload, as many as there are from its front on. -/
def triples (payload : Bytes) : List Tlv := (splitTlvs (fun _ => false) payload).1

/-- What is left of a payload behind its complete triples. -/
def leftOver (payload : Bytes) : Bytes := (splitTlvs (fun _ => false) payload).2

/--
What `parse_tlv` asks of a payload.

The complete triples leave less than a header, each of them has the width of its attribute, and
every attribute occurs.
-/
structure Parsable (schema : Schema) (payload : Bytes) : Prop where
  ends : (leftOver payload).length < 4
  widths : ∀ tlv ∈ triples payload, schema.Accepts tlv
  occurs : ∀ code ∈ schema.codes, ∃ tlv ∈ triples payload, tlv.type = code

/-- `parse_tlv` returns values exactly when they are the last ones of a payload without faults. -/
theorem parseTlv_eq_iff {schema : Schema} (distinct : schema.codes.Nodup) (payload : Bytes)
    (values : schema.Values) :
    schema.parseTlv payload = .ok values ↔ (leftOver payload).length < 4 ∧
      (∀ tlv ∈ triples payload, schema.Accepts tlv) ∧
      schema.HoldsLast (triples payload) (schema.present values) := by
  rw [← assignAll_eq_iff distinct]
  rw [Schema.parseTlv, tlvLoop_eq schema payload 0 _ (Nat.zero_le _), List.drop_zero, Schema.scan,
    ← triples, ← leftOver]
  cases assigned : schema.assignAll (triples payload) schema.empty with
  | error failure =>
    refine iff_of_false (fun impossible => ?_) fun holds => ?_
    · cases impossible
    · cases holds.2
  | ok slots =>
    by_cases short : (leftOver payload).length < 4
    · -- What is left is no header, so the loop ends and the slots are matched.
      simp only [bind, Except.bind, if_pos short, Except.ok.injEq, and_iff_right short]
      rw [← complete_eq_some]
      cases schema.complete slots with
      | none =>
        refine iff_of_false (fun impossible => ?_) fun impossible => ?_
        · cases impossible
        · cases impossible
      | some found => simp only [Except.ok.injEq, Option.some.injEq]
    · simp only [bind, Except.bind, if_neg short]
      refine iff_of_false (fun impossible => ?_) fun holds => short holds.1
      cases impossible

/-- `parse_tlv` returns a value exactly when a payload is as it asks for. -/
theorem parseTlv_ok_iff {schema : Schema} (distinct : schema.codes.Nodup) (payload : Bytes) :
    (∃ values, schema.parseTlv payload = .ok values) ↔ schema.Parsable payload := by
  simp only [parseTlv_eq_iff distinct]
  constructor
  · rintro ⟨values, ends, widths, holds⟩
    exact ⟨ends, widths, holds.complete_iff.mp ⟨values, rfl⟩⟩
  · rintro ⟨ends, widths, occurs⟩
    -- The slots that the triples are assigned to are all filled.
    obtain ⟨slots, assigned⟩ :=
      (schema.assignAll_ok_iff distinct (triples payload) schema.empty).mpr widths
    have holds := ((assignAll_eq_iff distinct (triples payload) slots).mp assigned).2
    obtain ⟨values, rfl⟩ := holds.complete_iff.mpr occurs
    exact ⟨values, ends, widths, holds⟩

/-- The same triples of every known attribute in the same order, with the same end behind them. -/
def Rearranged (schema : Schema) (payload other : Bytes) : Prop :=
  (∀ code ∈ schema.codes, (triples payload).filter (fun tlv => tlv.type = code) =
    (triples other).filter fun tlv => tlv.type = code) ∧ leftOver payload = leftOver other

/-- The last values are those of the triples of each attribute. -/
theorem holdsLast_congr {schema : Schema} {tlvs others : List Tlv}
    (same : ∀ code ∈ schema.codes, tlvs.filter (fun tlv => tlv.type = code) =
      others.filter fun tlv => tlv.type = code) (slots : schema.Slots) :
    schema.HoldsLast tlvs slots ↔ schema.HoldsLast others slots := by
  -- The induction is on the schema, each field of which looks at the triples of its own attribute.
  induction schema with
  | nil => exact Iff.rfl
  | cons field rest ih =>
    obtain ⟨slot, slots⟩ := slots
    simp only [codes, List.map_cons, List.forall_mem_cons] at same
    have first : lastValue field.attr.code tlvs = lastValue field.attr.code others := by
      rw [lastValue, lastValue, same.1]
    rw [HoldsLast, HoldsLast, first, ih same.2 slots]

/-- Only triples of known attributes can have the wrong width. -/
theorem widths_congr {schema : Schema} {tlvs others : List Tlv}
    (same : ∀ code ∈ schema.codes, tlvs.filter (fun tlv => tlv.type = code) =
      others.filter fun tlv => tlv.type = code) (widths : ∀ tlv ∈ tlvs, schema.Accepts tlv) :
    ∀ tlv ∈ others, schema.Accepts tlv := by
  intro tlv inside field known type
  -- The attribute is known, so the triple is among the others as well.
  have code : tlv.type ∈ schema.codes := List.mem_map.mpr ⟨field, known, type⟩
  have kept : tlv ∈ others.filter fun other => other.type = tlv.type :=
    List.mem_filter.mpr ⟨inside, decide_eq_true rfl⟩
  rw [← same tlv.type code] at kept
  exact widths tlv (List.mem_of_mem_filter kept) field known type

/-- Rearranging a payload does not change what `parse_tlv` returns for it. -/
theorem Rearranged.parseTlv {schema : Schema} (distinct : schema.codes.Nodup)
    {payload other : Bytes} (rearranged : schema.Rearranged payload other)
    (values : schema.Values) :
    schema.parseTlv payload = .ok values ↔ schema.parseTlv other = .ok values := by
  -- All that is looked at is the triples of each attribute and what is left over.
  obtain ⟨same, ends⟩ := rearranged
  have back := fun code known => (same code known).symm
  rw [parseTlv_eq_iff distinct, parseTlv_eq_iff distinct, ends, holdsLast_congr same]
  refine and_congr_right fun _ => and_congr_left fun _ => ?_
  exact ⟨widths_congr same, widths_congr back⟩

/-- A payload is a concatenation of triples exactly when nothing is left behind them. -/
theorem whole_iff (payload : Bytes) :
    (∃ tlvs, payload = tlvBytes tlvs) ↔ leftOver payload = [] := by
  -- Triples are split off until nothing more is a triple.
  constructor
  · rintro ⟨tlvs, rfl⟩
    have split := @splitTlvs_append (fun _ => false) tlvs [] fun _ _ => rfl
    rw [@splitTlvs_none _ [] rfl, List.append_nil, List.append_nil] at split
    rw [leftOver, split]
  · intro nothing
    have parts := splitTlvs_bytes (fun _ => false) payload
    rw [← leftOver, nothing, List.append_nil] at parts
    exact ⟨triples payload, parts⟩

end Schema

section Macro

variable {α : Type} [MacroCmd α]

/-- A command is parsed exactly when it is made from values that are parsed. -/
theorem parseTlv_ofValues (payload : Bytes) (cmd : α) :
    SendCmd.parseTlv payload = .ok cmd ↔
      ∃ values, (MacroCmd.schema α).parseTlv payload = .ok values ∧
        MacroCmd.ofValues values = cmd := by
  -- The command is put together from the values behind the parse.
  simp only [SendCmd.parseTlv, Functor.map]
  cases (MacroCmd.schema α).parseTlv payload with
  | error failure => simp [Except.map]
  | ok values => simp [Except.map]

/-- A command is parsed exactly when the payload is as `parse_tlv` asks for. -/
theorem parseTlv_parsable (payload : Bytes) :
    (∃ cmd : α, SendCmd.parseTlv payload = .ok cmd) ↔ (MacroCmd.schema α).Parsable payload := by
  -- The command does not decide whether the values are parsed.
  rw [← Schema.parseTlv_ok_iff (@MacroCmd.distinct α _)]
  constructor
  · rintro ⟨cmd, parsed⟩
    obtain ⟨values, found, _⟩ := (parseTlv_ofValues payload cmd).mp parsed
    exact ⟨values, found⟩
  · rintro ⟨values, found⟩
    exact ⟨_, (parseTlv_ofValues payload _).mpr ⟨values, found, rfl⟩⟩

/--
`parse_tlv` computes the last value of each attribute.

It returns a command exactly when fewer than four bytes are left behind the complete triples, every
triple of a fixed-width attribute has that width, and every attribute occurs. So neither the order
of triples of different attributes nor triples of foreign ones make a difference.
-/
theorem parseTlv_computes (payload : Bytes) :
    ((∃ cmd : α, SendCmd.parseTlv payload = .ok cmd) ↔
      (MacroCmd.schema α).Parsable payload) ∧
    (∀ cmd : α, SendCmd.parseTlv payload = .ok cmd →
      ∃ values, cmd = MacroCmd.ofValues values ∧ (MacroCmd.schema α).HoldsLast
        (Schema.triples payload) ((MacroCmd.schema α).present values)) ∧
    ∀ other, (MacroCmd.schema α).Rearranged payload other → ∀ cmd : α,
      SendCmd.parseTlv payload = .ok cmd ↔ SendCmd.parseTlv other = .ok cmd := by
  have distinct := @MacroCmd.distinct α _
  refine ⟨parseTlv_parsable payload, fun cmd parsed => ?_, fun other rearranged cmd => ?_⟩
  · -- What the command is made of holds the last values.
    obtain ⟨values, found, same⟩ := (parseTlv_ofValues payload cmd).mp parsed
    exact ⟨values, same.symm, ((Schema.parseTlv_eq_iff distinct payload values).mp found).2.2⟩
  · simp only [parseTlv_ofValues, rearranged.parseTlv distinct]

/--
A payload that is no concatenation of triples is refused exactly when more than a header is left of
it, or what it has is not enough or not right anyway.

A cut inside a header leaves one to three bytes, with which the loop of `parse_tlv` just ends.
-/
theorem truncation_detected_iff (payload : Bytes) :
    ((¬∃ tlvs, payload = tlvBytes tlvs) →
      ∃ error, (SendCmd.parseTlv payload : Outcome α) = .error (.io error)) ↔
    ((Schema.leftOver payload).length = 0 ∨ 4 ≤ (Schema.leftOver payload).length ∨
      (¬∀ tlv ∈ Schema.triples payload, (MacroCmd.schema α).Accepts tlv) ∨
      ¬∀ code ∈ (MacroCmd.schema α).codes, ∃ tlv ∈ Schema.triples payload, tlv.type = code) := by
  have parsable := @parseTlv_parsable α _ payload
  rw [Schema.whole_iff, ← List.length_eq_zero_iff]
  -- An outcome that is no command is an I/O error, as the parser does not panic.
  have refused : (∃ error, (SendCmd.parseTlv payload : Outcome α) = .error (.io error)) ↔
      ¬(MacroCmd.schema α).Parsable payload := by
    rw [← parsable]
    have safe := @parseTlv_not_panics α _ payload
    cases outcome : (SendCmd.parseTlv payload : Outcome α) with
    | ok cmd => simp
    | error failure =>
      cases failure with
      | io error => simp
      | panic message =>
        rw [outcome] at safe
        exact absurd (Outcome.panics_panic message) safe
  rw [refused]
  constructor
  · intro detects
    by_contra missed
    simp only [not_or, not_not, Nat.not_le] at missed
    exact detects missed.1 ⟨missed.2.1, missed.2.2.1, missed.2.2.2⟩
  · rintro (nothing | header | widths | occurs) cut parsable
    · exact cut nothing
    · exact absurd parsable.ends (Nat.not_lt.mpr header)
    · exact widths parsable.widths
    · exact occurs parsable.occurs

end Macro

/-- The value of the triple fits its length. -/
theorem pathTriple_fits : ([97] : Bytes).length < 65536 := by
  -- It is a single byte.
  decide

/-- The triple of a path. -/
def pathTriple : Tlv := ⟨15, [97], pathTriple_fits⟩

/-- A payload with a path, cut behind the first byte of another header. -/
def cutPayload : Bytes := tlvBytes [pathTriple] ++ [16]

/-- The path is the only complete triple of it. -/
theorem cutPayload_split : splitTlvs (fun _ => false) cutPayload = ([pathTriple], [16]) := by
  -- The byte behind it is too short for a header.
  have split := @splitTlvs_append (fun _ => false) [pathTriple] [16] fun _ _ => rfl
  rwa [@splitTlvs_none _ [16] rfl, List.append_nil] at split

/-- `UNLINK` takes the cut payload for a whole one. -/
theorem truncation_missed :
    ¬((¬∃ tlvs, cutPayload = tlvBytes tlvs) →
      ∃ error, (SendCmd.parseTlv cutPayload : Outcome UnlinkCmd) = .error (.io error)) := by
  -- The path is there, and the byte behind it is no header.
  have parsable : (MacroCmd.schema UnlinkCmd).Parsable cutPayload := by
    refine ⟨?_, ?_, ?_⟩
    · rw [Schema.leftOver, cutPayload_split]
      decide
    · rw [Schema.triples, cutPayload_split]
      intro tlv member field known type width fixed
      cases List.mem_singleton.mp known
      cases fixed
    · rw [Schema.triples, cutPayload_split]
      intro code known
      cases List.mem_singleton.mp known
      exact ⟨pathTriple, List.mem_singleton_self _, rfl⟩
  intro detects
  obtain ⟨cmd, parsed⟩ := (parseTlv_parsable cutPayload).mpr parsable
  have cut : ¬∃ tlvs, cutPayload = tlvBytes tlvs := by
    rw [Schema.whole_iff, Schema.leftOver, cutPayload_split]
    exact List.cons_ne_nil _ _
  obtain ⟨error, failed⟩ := detects cut
  rw [parsed] at failed
  cases failed

end Libbtrfs
