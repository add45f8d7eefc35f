import Libbtrfs.SendStream.TlvLaws

/-! Attributes written in any order, with foreign ones in between, are read back as they were. -/

namespace Libbtrfs

/-- Reading one attribute alone: every occurrence is parsed, and the last one stays. -/
def Field.read (field : Field) :
    List Tlv → Option field.type.Value → Outcome (Option field.type.Value)
  | [], slot => .ok slot
  | tlv :: rest, slot =>
    if tlv.type = field.attr.code then do
      let value ← field.type.parse tlv.value
      field.read rest (some value)
    else field.read rest slot

/-- The triple that a sender writes for an attribute, or none for one that is left out. -/
def Field.encode (field : Field) : Option field.type.Value → List (UInt16 × Bytes)
  | some value => [(field.attr.code, field.type.encode value)]
  | none => []

namespace Schema

/-- The triples that a sender writes for a choice of values. -/
def encode : (schema : Schema) → schema.Slots → List (UInt16 × Bytes)
  | [], () => []
  | field :: rest, (slot, slots) => field.encode slot ++ encode rest slots

/-- Every chosen value has an encoding. -/
def Encodable : (schema : Schema) → schema.Slots → Prop
  | [], () => True
  | field :: rest, (slot, slots) =>
    (∀ value, slot = some value → field.type.Encodable value) ∧ Encodable rest slots

/-- Slots in which every attribute was found give back all of their values. -/
theorem complete_present (schema : Schema) (values : schema.Values) :
    schema.complete (schema.present values) = some values := by
  -- Every field is there, so none of the required ones is missed.
  induction schema with
  | nil => rfl
  | cons field rest ih =>
    obtain ⟨value, values⟩ := values
    simp [complete, present, ih]

/-- An attribute foreign to the command leaves every slot as it was. -/
theorem assign_foreign (schema : Schema) {type : UInt16} (value : Bytes) (slots : schema.Slots)
    (foreign : type ∉ schema.codes) : schema.assign type value slots = .ok slots := by
  -- No field has the code, so every one of them is passed by.
  induction schema with
  | nil => rfl
  | cons field rest ih =>
    obtain ⟨slot, slots⟩ := slots
    simp only [codes, List.map_cons, List.mem_cons, not_or] at foreign
    rw [assign, if_neg foreign.1, ih slots foreign.2]
    rfl

/-- Triples that are all foreign to the command leave every slot as it was. -/
theorem assignAll_foreign (schema : Schema) {tlvs : List Tlv} (slots : schema.Slots)
    (foreign : ∀ tlv ∈ tlvs, tlv.type ∉ schema.codes) :
    schema.assignAll tlvs slots = .ok slots := by
  -- Each of the TLVs leaves the slots as they are.
  induction tlvs with
  | nil => rfl
  | cons tlv tlvs ih =>
    rw [assignAll, schema.assign_foreign tlv.value slots (foreign tlv (by simp))]
    exact ih fun other member => foreign other (by simp [member])

/-- Assigning to a command is assigning to its first attribute and to the others side by side. -/
theorem assignAll_cons {field : Field} {rest : Schema} (first : field.attr.code ∉ rest.codes)
    {tlvs : List Tlv} {slot slot' : Option field.type.Value} {slots slots' : rest.Slots}
    (head : field.read tlvs slot = .ok slot') (tail : rest.assignAll tlvs slots = .ok slots') :
    Schema.assignAll (field :: rest) tlvs (slot, slots) = .ok (slot', slots') := by
  -- Each triple belongs to the first attribute or to the others, and never to both.
  induction tlvs generalizing slot slots with
  | nil =>
    cases head
    cases tail
    rfl
  | cons tlv tlvs ih =>
    by_cases mine : tlv.type = field.attr.code
    · have others : rest.assign tlv.type tlv.value slots = .ok slots :=
        rest.assign_foreign tlv.value slots (mine ▸ first)
      simp only [Field.read, if_pos mine] at head
      simp only [assignAll, others] at tail
      cases parsed : field.type.parse tlv.value with
      | error failure => rw [parsed] at head; cases head
      | ok value =>
        rw [parsed] at head
        have later := ih head tail
        simp only [assignAll, assign, if_pos mine, parsed]
        exact later
    · simp only [Field.read, if_neg mine] at head
      simp only [assignAll] at tail
      cases assigned : rest.assign tlv.type tlv.value slots with
      | error failure => rw [assigned] at tail; cases tail
      | ok between =>
        rw [assigned] at tail
        have later := ih head tail
        simp only [assignAll, assign, if_neg mine, assigned]
        exact later

end Schema

/-- A field reads the triples of its own attribute. -/
private theorem read_filter (field : Field) (tlvs : List Tlv) (slot : Option field.type.Value) :
    field.read tlvs slot =
      field.read (tlvs.filter fun tlv => tlv.type == field.attr.code) slot := by
  -- A TLV of another code is passed by on both sides.
  induction tlvs generalizing slot with
  | nil => rfl
  | cons tlv tlvs ih =>
    by_cases mine : tlv.type = field.attr.code
    · rw [List.filter_cons_of_pos (by simpa using mine)]
      simp only [Field.read, if_pos mine]
      congr 1
      funext value
      exact ih (some value)
    · rw [List.filter_cons_of_neg (by simpa using mine)]
      simp only [Field.read, if_neg mine]
      exact ih slot

/-- The number and the bytes of a triple, which is what a sender chooses. -/
def Tlv.pair (tlv : Tlv) : UInt16 × Bytes := (tlv.type, tlv.value)

/-- Triples may be selected by their attribute before or after they are taken as pairs. -/
private theorem filter_pair (tlvs : List Tlv) (keep : UInt16 → Bool) :
    (tlvs.map Tlv.pair).filter (fun pair => keep pair.1) =
      (tlvs.filter fun tlv => keep tlv.type).map Tlv.pair := by
  -- A TLV and its pair have the same type.
  rw [List.filter_map]
  rfl

/-- A field is written under its own attribute. -/
private theorem field_encode_keys (field : Field) (slot : Option field.type.Value) :
    ∀ pair ∈ field.encode slot, pair.1 = field.attr.code := by
  -- A slot without a value encodes to nothing.
  intro pair member
  cases slot with
  | none => cases member
  | some value => rw [List.mem_singleton.mp member]

/-- A schema writes no other attributes than its own. -/
private theorem encode_keys (schema : Schema) (slots : schema.Slots) :
    ∀ pair ∈ schema.encode slots, pair.1 ∈ schema.codes := by
  -- A pair comes from the first field or from one of the others.
  induction schema with
  | nil => simp [Schema.encode]
  | cons field rest ih =>
    obtain ⟨slot, slots⟩ := slots
    intro pair member
    simp only [Schema.encode, List.mem_append] at member
    rcases member with own | other
    · rw [field_encode_keys field slot pair own]
      simp [Schema.codes]
    · have later := ih slots pair other
      simp only [Schema.codes, List.map_cons, List.mem_cons] at later ⊢
      exact Or.inr later

/-- A field reads back the value that its triples were written from, if they are all there is. -/
private theorem read_encode (field : Field) (slot : Option field.type.Value)
    (own : ∀ value, slot = some value → field.type.Encodable value) {tlvs : List Tlv}
    (alone : (tlvs.map Tlv.pair).Perm (field.encode slot)) : field.read tlvs none = .ok slot := by
  -- There is at most one triple, and it carries the encoded value.
  cases slot with
  | none =>
    have nothing := List.perm_nil.mp alone
    rw [List.map_eq_nil_iff.mp nothing]
    rfl
  | some value =>
    obtain ⟨tlv, single, pair⟩ := List.map_eq_singleton_iff.mp (List.perm_singleton.mp alone)
    obtain ⟨type, bytes⟩ := Prod.mk.inj pair
    rw [single, Field.read, if_pos type, bytes,
      AttrType.parse_encode field.type value (own value rfl)]
    rfl

/-- Restricted to some of its numbers, a payload still holds what is encoded under them. -/
private theorem written_restricted {schema : Schema} {slots : schema.Slots} {tlvs : List Tlv}
    (keep : UInt16 → Bool)
    (written : ((tlvs.filter fun tlv => tlv.type ∈ schema.codes).map Tlv.pair).Perm
      (schema.encode slots))
    (known : ∀ code, keep code = true → code ∈ schema.codes) :
    ((tlvs.filter fun tlv => keep tlv.type).map Tlv.pair).Perm
      ((schema.encode slots).filter fun pair => keep pair.1) := by
  -- Both sides are filtered, and what is kept is known already.
  have both := written.filter fun pair => keep pair.1
  rw [filter_pair, List.filter_filter] at both
  have same : (tlvs.filter fun tlv => keep tlv.type) =
      tlvs.filter fun tlv => keep tlv.type && decide (tlv.type ∈ schema.codes) := by
    apply List.filter_congr
    intro tlv _
    by_cases kept : keep tlv.type = true
    · simp [kept, known tlv.type kept]
    · simp [kept]
  rwa [same]

/--
Triples that hold the encoded attributes in any order fill the slots with their values.

Triples of attributes that the command does not know may stand anywhere in between.
-/
theorem assignAll_encode (schema : Schema) (distinct : schema.codes.Nodup)
    (slots : schema.Slots) (encodable : schema.Encodable slots) (tlvs : List Tlv)
    (written : ((tlvs.filter fun tlv => tlv.type ∈ schema.codes).map Tlv.pair).Perm
      (schema.encode slots)) :
    schema.assignAll tlvs schema.empty = .ok slots := by
  -- The attributes are peeled off one by one, each with the triples that carry its number.
  induction schema with
  | nil => exact Schema.assignAll_foreign [] slots fun tlv member => by simp [Schema.codes]
  | cons field rest ih =>
    obtain ⟨slot, slots⟩ := slots
    simp only [Schema.codes, List.map_cons, List.nodup_cons] at distinct
    obtain ⟨first, distinct⟩ := distinct
    obtain ⟨own, others⟩ := encodable
    apply Schema.assignAll_cons first
    · -- Of the first attribute there are only its own triples.
      rw [read_filter]
      refine read_encode field slot own ?_
      have alone := written_restricted (fun code => code == field.attr.code) written
        (by intro code same; simp [Schema.codes, beq_iff_eq.mp same])
      have noOther : ((Schema.encode rest slots).filter fun pair => pair.1 == field.attr.code) = [] := by
        rw [List.filter_eq_nil_iff]
        intro pair member same
        exact first (beq_iff_eq.mp same ▸ encode_keys rest slots pair member)
      have mine : ((field.encode slot).filter fun pair => pair.1 == field.attr.code) =
          field.encode slot := by
        rw [List.filter_eq_self]
        intro pair member
        rw [field_encode_keys field slot pair member, beq_self_eq_true]
      simpa only [Schema.encode, List.filter_append, mine, noOther, List.append_nil] using alone
    · -- The other attributes see their own triples only.
      apply ih distinct slots others
      have rest_only := written_restricted (fun code => decide (code ∈ Schema.codes rest)) written
        (by
          intro code member
          simp only [decide_eq_true_eq] at member
          simp only [Schema.codes, List.map_cons, List.mem_cons]
          exact Or.inr member)
      have mine : ((field.encode slot).filter fun pair => decide (pair.1 ∈ Schema.codes rest)) =
          [] := by
        rw [List.filter_eq_nil_iff]
        intro pair member
        rw [field_encode_keys field slot pair member, decide_eq_true_eq]
        exact first
      have same : ((Schema.encode rest slots).filter fun pair => decide (pair.1 ∈ Schema.codes rest)) =
          Schema.encode rest slots := by
        rw [List.filter_eq_self]
        intro pair member
        simpa using encode_keys rest slots pair member
      simpa only [Schema.encode, List.filter_append, mine, List.nil_append, same] using rest_only

/-- Every value that a command looks at has the width that its attribute demands. -/
def Schema.Accepts (schema : Schema) (tlv : Tlv) : Prop :=
  ∀ field ∈ schema, field.attr.code = tlv.type →
    ∀ width, field.type.width = some width → tlv.value.length = width

/-- An assignment succeeds exactly when the value has the width that is demanded of it. -/
theorem Schema.assign_ok_iff (schema : Schema) (distinct : schema.codes.Nodup) (tlv : Tlv)
    (slots : schema.Slots) :
    (∃ slots', schema.assign tlv.type tlv.value slots = .ok slots') ↔ schema.Accepts tlv := by
  -- The number selects at most one attribute, and that one parses the value or refuses it.
  induction schema with
  | nil =>
    constructor
    · intro _ field member
      cases member
    · intro _
      exact ⟨(), rfl⟩
  | cons field rest ih =>
    obtain ⟨slot, slots⟩ := slots
    simp only [Schema.codes, List.map_cons, List.nodup_cons] at distinct
    obtain ⟨first, distinct⟩ := distinct
    by_cases mine : tlv.type = field.attr.code
    · have alone : Schema.Accepts (field :: rest) tlv ↔
          ∀ width, field.type.width = some width → tlv.value.length = width := by
        constructor
        · intro accepts
          exact accepts field (by simp) mine.symm
        · intro accepts other member same
          rcases List.mem_cons.mp member with rfl | later
          · exact accepts
          · exact absurd (List.mem_map.mpr ⟨other, later, same.trans mine⟩) first
      rw [alone, ← AttrType.parse_ok_iff]
      simp only [Schema.assign, if_pos mine]
      cases field.type.parse tlv.value with
      | error failure =>
        constructor <;> rintro ⟨result, impossible⟩ <;> cases impossible
      | ok value => exact ⟨fun _ => ⟨value, rfl⟩, fun _ => ⟨_, rfl⟩⟩
    · have others : Schema.Accepts (field :: rest) tlv ↔ Schema.Accepts rest tlv := by
        constructor
        · intro accepts other member
          exact accepts other (by simp [member])
        · intro accepts other member same
          rcases List.mem_cons.mp member with rfl | later
          · exact absurd same.symm mine
          · exact accepts other later same
      rw [others, ← ih distinct slots]
      simp only [Schema.assign, if_neg mine]
      cases Schema.assign rest tlv.type tlv.value slots with
      | error failure =>
        constructor <;> rintro ⟨result, impossible⟩ <;> cases impossible
      | ok assigned => exact ⟨fun _ => ⟨assigned, rfl⟩, fun _ => ⟨_, rfl⟩⟩

/-- A sequence is assigned exactly when every value in it has the width demanded of it. -/
theorem Schema.assignAll_ok_iff (schema : Schema) (distinct : schema.codes.Nodup)
    (tlvs : List Tlv) (slots : schema.Slots) :
    (∃ slots', schema.assignAll tlvs slots = .ok slots') ↔
      ∀ tlv ∈ tlvs, schema.Accepts tlv := by
  -- The first TLV is assigned whenever it is accepted, whatever the slots hold.
  induction tlvs generalizing slots with
  | nil =>
    constructor
    · intro _ tlv member
      cases member
    · intro _
      exact ⟨slots, rfl⟩
  | cons tlv tlvs ih =>
    have step := schema.assign_ok_iff distinct tlv slots
    simp only [Schema.assignAll, List.forall_mem_cons, ← step]
    cases assigned : schema.assign tlv.type tlv.value slots with
    | error failure =>
      constructor
      · rintro ⟨result, impossible⟩
        cases impossible
      · rintro ⟨⟨result, impossible⟩, _⟩
        cases impossible
    | ok between =>
      exact ⟨fun done => ⟨⟨between, rfl⟩, (ih between).mp done⟩,
        fun both => (ih between).mpr both.2⟩

/-- Assigning can fail, but it cannot panic. -/
theorem Schema.assign_not_panics (schema : Schema) (type : UInt16) (value : Bytes)
    (slots : schema.Slots) : ¬ (schema.assign type value slots).Panics := by
  -- The only failures are those of the parsers of the single attributes.
  induction schema with
  | nil => exact Outcome.not_panics_ok _
  | cons field rest ih =>
    obtain ⟨slot, slots⟩ := slots
    rw [Schema.assign]
    split
    · rw [Outcome.panics_bind]
      rintro (parsing | ⟨value, _, later⟩)
      · exact field.type.parse_not_panics value parsing
      · exact Outcome.not_panics_ok _ later
    · rw [Outcome.panics_bind]
      rintro (assigning | ⟨others, _, later⟩)
      · exact ih slots assigning
      · exact Outcome.not_panics_ok _ later

/-- Assigning a whole sequence cannot panic either. -/
theorem Schema.assignAll_not_panics (schema : Schema) (tlvs : List Tlv) (slots : schema.Slots) :
    ¬ (schema.assignAll tlvs slots).Panics := by
  -- A panic would be one of the first assignment or of a later one.
  induction tlvs generalizing slots with
  | nil => exact Outcome.not_panics_ok _
  | cons tlv tlvs ih =>
    rw [Schema.assignAll, Outcome.panics_bind]
    rintro (first | ⟨between, _, later⟩)
    · exact schema.assign_not_panics tlv.type tlv.value slots first
    · exact ih between later

end Libbtrfs
