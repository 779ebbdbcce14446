import Orchestration.Memory.Remote
import Orchestration.Proofs.SinglesInDocuments
import Orchestration.Proofs.StoreContents
import Orchestration.Proofs.WrittenTimes

/-!
# Points as documents

A vector server is sent records as points: documents with an id, a vector and a payload. It gives a point back among
fields of its own, and from what it gives back the record is put together again, bit for bit and character for
character.

* `Source.Holds` — an object has one field of a name, whatever else it has.
* `Decoder.record_named` — a record reads an object of which it knows some fields, each there once at most.
* `Record.Writable` — the records that can be put into documents.
* `RemoteStore.payloadDecoder_payloadSource`, `RemoteStore.exists_vectorSource` — what a point carries is read as it
  was.
* `RemoteStore.pointDecoder_of_shows` — so is a point that is shown, with its vector or without.
-/

namespace Orchestration

open Memory Number Time

/-! ### Fields by their names -/

namespace Source

/-- An object of fields that all have names. -/
def named (fields : List (String × Source)) : Source := .object (fields.map fun f => (some f.1, f.2))

/-- An object of named fields, just one of which has the name; and that one has the value. -/
def Holds (tree : Source) (name : String) (value : Source) : Prop :=
  ∃ fields, tree = named fields ∧ fields.filter (·.1 = name) = [(name, value)]

/-- An object of named fields, none of which has the name. -/
def Lacks (tree : Source) (name : String) : Prop :=
  ∃ fields, tree = named fields ∧ fields.filter (·.1 = name) = []

variable {fields others : List (String × Source)} {name : String} {tree value other : Source}

theorem named_inj : named fields = named others ↔ fields = others := by
  refine ⟨fun h => ?_, congrArg named⟩
  refine List.map_injective_iff.mpr (fun f g hfg => ?_) (Source.object.inj h)
  obtain ⟨hname, hvalue⟩ := Prod.mk.inj hfg
  exact Prod.ext (Option.some.inj hname) hvalue

theorem holds_named : (named fields).Holds name value ↔ fields.filter (·.1 = name) = [(name, value)] := by
  constructor
  · rintro ⟨others, hsame, hfilter⟩
    obtain rfl := named_inj.mp hsame
    exact hfilter
  · exact fun h => ⟨fields, rfl, h⟩

theorem lacks_named : (named fields).Lacks name ↔ fields.filter (·.1 = name) = [] := by
  constructor
  · rintro ⟨others, hsame, hfilter⟩
    obtain rfl := named_inj.mp hsame
    exact hfilter
  · exact fun h => ⟨fields, rfl, h⟩

theorem Holds.unique (h : tree.Holds name value) (hother : tree.Holds name other) : value = other := by
  obtain ⟨fields, rfl, hfilter⟩ := h
  have hfilter' := holds_named.mp hother
  rw [hfilter] at hfilter'
  simpa using hfilter'

end Source

/-- What is found under a name is the first field that has it. -/
theorem lookupEntry_eq_head? {α : Type} (name : String) (entries : List (String × α)) :
    lookupEntry name entries = (entries.filter (·.1 = name)).head?.map (·.2) := by
  induction entries with
  | nil => rfl
  | cons e entries ih =>
    obtain ⟨first, held⟩ := e
    rw [lookupEntry]
    by_cases h : first = name
    · rw [if_pos h, List.filter_cons_of_pos (by simpa using h)]
      rfl
    · rw [if_neg h, ih, List.filter_cons_of_neg (by simpa using h)]

namespace Decoder

variable {α : Type} {names : List String} {fields : List (String × Source)} {depth : ℕ}

/-- **A record reads an object of named fields** of which each that it knows is there once at most. -/
theorem record_named (honce : ∀ name ∈ names, (fields.filter (·.1 = name)).length ≤ 1)
    (build : Fields → Option α) (hdepth : 2 ≤ depth) :
    record names build depth (.named fields) = build ⟨depth - 1, false, fields.filter (names.contains ·.1)⟩ := by
  obtain ⟨found, hfound⟩ : ∃ found, found = fields.filter (names.contains ·.1) := ⟨_, rfl⟩
  have hnodup : (found.map (·.1)).Nodup := by
    rw [List.nodup_iff_count_le_one]
    intro name
    rw [List.count, List.countP_map, List.countP_eq_length_filter, hfound, List.filter_filter]
    by_cases hname : name ∈ names
    · refine le_trans (le_of_eq ?_) (honce name hname)
      congr 2
      funext f
      by_cases hf : f.1 = name
      · simp [hf, hname]
      · simp [hf]
    · have hnone : fields.filter (fun f => ((· == name) ∘ (·.1)) f && names.contains f.1) = [] := by
        refine List.filter_eq_nil_iff.mpr fun f _ hboth => ?_
        obtain ⟨hf, hmem⟩ := Bool.and_eq_true_iff.mp hboth
        exact hname (eq_of_beq hf ▸ List.contains_iff_mem.mp hmem)
      rw [hnone]
      exact Nat.zero_le _
  have hdistinct : ¬(found.map (·.1)).eraseDups.length < found.length := by
    rw [eraseDups_of_nodup hnodup, List.length_map]
    exact Nat.lt_irrefl _
  have henter : Source.enter? depth = some (depth - 1) := if_pos hdepth
  rw [Source.named, record, henter]
  simp only [bind, Option.bind]
  rw [mapM_map_eq_some (fun f : String × Source => (some f.1, f.2)) fun f => rfl]
  simp only [← hfound, if_neg hdistinct]

/-- A name that the record knows is found among the fields that it knows. -/
theorem lookupEntry_known {name : String} (hname : name ∈ names) :
    lookupEntry name (fields.filter (names.contains ·.1)) = (fields.filter (·.1 = name)).head?.map (·.2) := by
  rw [lookupEntry_eq_head?, List.filter_filter]
  congr 3
  funext f
  by_cases hf : f.1 = name
  · simp [hf, hname]
  · simp [hf]

/-- A record of one field. -/
theorem record_of_holds {name : String} {tree value : Source} (h : tree.Holds name value) (decode : Decoder α)
    (hdepth : 2 ≤ depth) :
    record [name] (fun f => f.required name decode) depth tree = decode (depth - 1) value := by
  obtain ⟨fields, rfl, hfilter⟩ := h
  have honce : ∀ other ∈ [name], (fields.filter (·.1 = other)).length ≤ 1 := by
    intro other hother
    rw [List.mem_singleton.mp hother, hfilter]
    exact le_refl 1
  rw [record_named honce _ hdepth, Fields.required, lookupEntry_known List.mem_cons_self, hfilter]
  rfl

/-- A value that is no `null` is read as itself where there may be none. -/
theorem option_of_some {decode : Decoder α} {tree : Source} {value : α} (hnull : decode depth .null = none)
    (h : decode depth tree = some value) : option decode depth tree = some (some value) := by
  rw [option.eq_def]
  split
  · rw [hnull] at h
    cases h
  · rw [h]
    rfl

end Decoder

/-! ### Records in documents -/

namespace Memory

/-- The record can be put into a document: its vector is finite, and its time is one that there is. -/
structure Record.Writable (r : Record) : Prop where
  /-- the vector is finite -/
  finite : ∀ x ∈ r.embedding, x.isFinite = true
  /-- the time can be read -/
  sound : ∀ t, r.timestamp = some t → t.Sound

namespace Record

variable {r : Record}

theorem Writable.filed (h : r.Writable) : r.filed.Writable := ⟨h.finite, h.sound⟩

/-- The fields of what a point carries besides its vector, as they are read. -/
def payloadFields (r : Record) : List (String × Source) := [
  ("additional_metadata", .string r.metadata.additionalMetadata),
  ("description", .string r.metadata.description),
  ("external_source_name", .string r.metadata.externalSourceName),
  ("id", .string r.metadata.id),
  ("is_reference", .bool r.metadata.isReference),
  ("key", .string r.effectiveKey),
  ("text", .string r.metadata.text)] ++
    (r.timestamp.map fun t : Timestamp => ("timestamp", Source.string t.document)).toList

/-- What a point carries besides its vector, as it is read. -/
def payloadSource (r : Record) : Source := .named r.payloadFields

/-- Every field has a name that is known, and no two have the same. -/
theorem payloadFields_names (r : Record) :
    (∀ f ∈ r.payloadFields, f.1 ∈ ["key", "timestamp"] ++ Metadata.fieldNames) ∧
      (r.payloadFields.map Prod.fst).Nodup := by
  obtain ⟨names, hnames⟩ : ∃ names, names = r.payloadFields.map Prod.fst := ⟨_, rfl⟩
  have hcases : names = ["additional_metadata", "description", "external_source_name", "id", "is_reference", "key",
      "text"] ∨ names = ["additional_metadata", "description", "external_source_name", "id", "is_reference", "key",
      "text", "timestamp"] := by
    rw [hnames, payloadFields]
    cases r.timestamp with
    | none => exact .inl rfl
    | some t => exact .inr rfl
  have hknown : (∀ name ∈ names, name ∈ ["key", "timestamp"] ++ Metadata.fieldNames) ∧ names.Nodup := by
    rcases hcases with h | h
    · rw [h]
      decide
    · rw [h]
      decide
  exact ⟨fun f hf => hknown.1 f.1 (hnames ▸ List.mem_map_of_mem hf), hnames ▸ hknown.2⟩

end Record

namespace RemoteStore

variable {r : Record} {depth : ℕ}

/-! ### Payloads -/

theorem payloadJson_source? (r : Record) : (payloadJson r).source? = some r.payloadSource := by
  rw [payloadJson, Record.payloadSource, Record.payloadFields]
  cases r.timestamp with
  | none =>
    simp only [Json.ofFields, Metadata.jsonFields, List.cons_append, List.nil_append, List.append_nil,
      List.foldl_cons, insertEntry, String.reduceLT, ↓reduceIte, String.reduceEq, List.foldl_nil]
    rfl
  | some t =>
    simp only [Json.ofFields, Metadata.jsonFields, List.cons_append, List.nil_append, List.foldl_cons, insertEntry,
      String.reduceLT, ↓reduceIte, String.reduceEq, List.foldl_nil]
    rfl

theorem areReadable_payloadFields (r : Record) (hdepth : 2 ≤ depth) :
    areReadable depth (r.payloadFields.map fun f => (some f.1, f.2)) = true := by
  have henter : Source.enter? depth = some (depth - 1) := if_pos hdepth
  rw [areReadable, henter, Record.payloadFields]
  cases r.timestamp <;> rfl

theorem payloadFields_eq_some {f : Decoder.Fields} {metadata : Metadata} {key : String} {time : Option Timestamp}
    (hmetadata : Metadata.ofFields f = some metadata) (hkey : f.required "key" .string = some key)
    (htime : f.withDefault "timestamp" none (.option Record.timestampDecoder) = some time) :
    payloadFields f = some { metadata, key, timestamp := time } := by
  rw [payloadFields, hmetadata, hkey, htime]
  rfl

/-- **What a point carries** is the record under its effective key, without its vector. -/
theorem payloadDecoder_payloadSource (h : r.Writable) (hdepth : 2 ≤ depth) :
    payloadDecoder depth r.payloadSource = some r.filed.withoutEmbedding := by
  obtain ⟨hknown, hnodup⟩ := r.payloadFields_names
  obtain ⟨f, hf⟩ : ∃ f : Decoder.Fields, f = ⟨depth - 1, false, r.payloadFields⟩ := ⟨_, rfl⟩
  have hread : payloadDecoder depth r.payloadSource = payloadFields f := by
    rw [Record.payloadSource, Source.named, payloadDecoder, if_pos (areReadable_payloadFields r hdepth),
      Decoder.record_of_fields hknown hnodup _ hdepth, hf]
  have htime : f.withDefault "timestamp" none (.option Record.timestampDecoder) = some r.timestamp := by
    rw [Decoder.Fields.withDefault, hf, Record.payloadFields]
    cases hstamp : r.timestamp with
    | none => rfl
    | some t =>
      have hdecode : Decoder.option Record.timestampDecoder (depth - 1) (.string t.document) =
          (Zoned.readLoose? t.document).map fun z => some z.instant := by
        rw [Decoder.option, Record.timestampDecoder, Option.map_map]
        · rfl
        · nofun
      rw [Zoned.readLoose?_document (h.sound t hstamp)] at hdecode
      exact hdecode
  have hmetadata : Metadata.ofFields f = some r.metadata := by rw [hf]; rfl
  have hkey : f.required "key" .string = some r.effectiveKey := by rw [hf]; rfl
  rw [hread, payloadFields_eq_some hmetadata hkey htime]
  rfl

/-! ### Vectors -/

/-- **A finite vector** is read as it was, bit for bit. -/
theorem exists_vectorSource {v : Vector} (h : ∀ x ∈ v, x.isFinite = true) :
    ∃ trees, (vectorJson v).source? = some (.array trees) ∧
      ∀ depth, 2 ≤ depth → Decoder.list .single depth (.array trees) = some v := by
  have hitems : ∃ trees, Json.itemSources? (v.map fun x => .ofFloat x.toDouble) = some trees ∧
      ∀ depth, trees.mapM (Decoder.single depth) = some v := by
    induction v with
    | nil => exact ⟨[], rfl, fun depth => rfl⟩
    | cons x v ih =>
      obtain ⟨trees, hsource, hread⟩ := ih fun y hy => h y (List.mem_cons_of_mem x hy)
      have hfirst := Single.readBack (h x List.mem_cons_self)
      obtain ⟨tree, htree, -⟩ := Option.bind_eq_some_iff.mp (hfirst 0)
      rw [htree] at hfirst
      refine ⟨tree :: trees, ?_, fun depth => ?_⟩
      · rw [List.map_cons, Json.itemSources?, Json.ofFloat, Json.source?, htree, hsource]
      rw [List.mapM_cons, hread depth]
      exact Option.bind_eq_some_iff.mpr ⟨x, hfirst depth, rfl⟩
  obtain ⟨trees, hsource, hread⟩ := hitems
  refine ⟨trees, congrArg (Option.map Source.array) hsource, fun depth hdepth => ?_⟩
  have henter : Source.enter? depth = some (depth - 1) := if_pos hdepth
  rw [Decoder.list, henter]
  exact hread (depth - 1)

/-! ### Points -/

/-- A point as it is read: its id, its payload and its vector. -/
def pointSource (r : Record) (vector : Source) : Source :=
  .named [("id", .string (pointId r.effectiveKey)), ("payload", r.payloadSource), ("vector", vector)]

theorem holds_pointSource (r : Record) (vector : Source) :
    (pointSource r vector).Holds "id" (.string (pointId r.effectiveKey)) ∧
      (pointSource r vector).Holds "payload" r.payloadSource ∧ (pointSource r vector).Holds "vector" vector :=
  ⟨Source.holds_named.mpr (by simp), Source.holds_named.mpr (by simp), Source.holds_named.mpr (by simp)⟩

theorem pointJson_source? {vector : Source} (h : (vectorJson r.embedding).source? = some vector) :
    (pointJson r).source? = some (pointSource r vector) := by
  have hpoint : pointJson r = .object [("id", .string (pointId r.effectiveKey)), ("payload", payloadJson r),
      ("vector", vectorJson r.embedding)] := by
    simp only [pointJson, Json.ofFields, List.foldl_cons, insertEntry, String.reduceLT, ↓reduceIte, String.reduceEq,
      List.foldl_nil]
  rw [hpoint, Json.source?, Json.fieldSources?, Json.fieldSources?, Json.fieldSources?, payloadJson_source?, h]
  rfl

/-- A point is shown with the payload it was put with, and with its vector or without, among fields of the
server's own. -/
structure Shows (withVector : Bool) (kept shown : Source) : Prop where
  /-- the payload is there -/
  payload : ∃ payload, kept.Holds "payload" payload ∧ shown.Holds "payload" payload
  /-- the vector is there if it was asked for -/
  vector : if withVector then ∃ vector, kept.Holds "vector" vector ∧ shown.Holds "vector" vector
    else shown.Lacks "vector" ∨ shown.Holds "vector" .null

/-- A point with a payload that can be read, and a vector that can be read or is not there. -/
theorem pointDecoder_eq_some {tree payload : Source} {record : Record} {vector : Option Vector}
    (hpayload : tree.Holds "payload" payload) (hread : payloadDecoder (depth - 1) payload = some record)
    (hvector : (tree.Lacks "vector" ∧ vector = none) ∨ ∃ value, tree.Holds "vector" value ∧
      Decoder.option (.list .single) (depth - 1) value = some vector) (hdepth : 2 ≤ depth) :
    ∃ point, pointDecoder depth tree = some point ∧
      point.record? = some { record with embedding := vector.getD [] } := by
  obtain ⟨fields, rfl, hfilter⟩ := hpayload
  rw [Source.lacks_named] at hvector
  simp only [Source.holds_named] at hvector
  obtain ⟨f, hf⟩ : ∃ f : Decoder.Fields,
      f = ⟨depth - 1, false, fields.filter (["payload", "vector"].contains ·.1)⟩ := ⟨_, rfl⟩
  have hpayloadField : f.optional "payload" payloadDecoder = some (some record) := by
    rw [Decoder.Fields.optional, hf, Decoder.lookupEntry_known (by decide), hfilter]
    exact Decoder.option_of_some rfl hread
  have hvectorField : f.withDefault "vector" none (.option (.list .single)) = some vector := by
    rw [Decoder.Fields.withDefault, hf, Decoder.lookupEntry_known (by decide)]
    rcases hvector with ⟨hlacks, rfl⟩ | ⟨value, hholds, hvalue⟩
    · rw [hlacks]
      rfl
    · rw [hholds]
      exact hvalue
  have honce : ∀ name ∈ ["payload", "vector"], (fields.filter (·.1 = name)).length ≤ 1 := by
    intro name hname
    rcases List.mem_pair.mp hname with rfl | rfl
    · rw [hfilter]
      exact le_refl 1
    · rcases hvector with ⟨hlacks, -⟩ | ⟨value, hholds, -⟩
      · rw [hlacks]
        exact Nat.zero_le 1
      · rw [hholds]
        exact le_refl 1
  refine ⟨{ payload := some record, vector }, ?_, rfl⟩
  rw [pointDecoder, Decoder.record_named honce _ hdepth, ← hf, hpayloadField, hvectorField]
  rfl

/-- **A point that is shown** is the record that was put, under its effective key. -/
theorem pointDecoder_of_shows (h : r.Writable) {withVector : Bool} {kept shown : Source}
    (hkept : (pointJson r).source? = some kept) (hshown : Shows withVector kept shown) (hdepth : 3 ≤ depth) :
    ∃ point, pointDecoder depth shown = some point ∧ point.record? = some (r.filed.shown withVector) := by
  obtain ⟨trees, hvector, hreadVector⟩ := exists_vectorSource h.finite
  obtain rfl := Option.some.inj (hkept.symm.trans (pointJson_source? hvector))
  obtain ⟨payload, hkeptPayload, hshownPayload⟩ := hshown.payload
  obtain rfl : r.payloadSource = payload := (holds_pointSource r _).2.1.unique hkeptPayload
  have hpayload : payloadDecoder (depth - 1) r.payloadSource = some r.filed.withoutEmbedding :=
    payloadDecoder_payloadSource h (by omega)
  have hshownVector := hshown.vector
  cases withVector with
  | true =>
    obtain ⟨vector, hkeptVector, hholds⟩ := hshownVector
    obtain rfl : Source.array trees = vector := (holds_pointSource r _).2.2.unique hkeptVector
    have hread := Decoder.option_of_some rfl (hreadVector (depth - 1) (by omega))
    obtain ⟨point, hpoint, hrecord⟩ :=
      pointDecoder_eq_some hshownPayload hpayload (.inr ⟨_, hholds, hread⟩) (by omega)
    exact ⟨point, hpoint, hrecord⟩
  | false =>
    have hnone : (shown.Lacks "vector" ∧ none = (none : Option Vector)) ∨ ∃ value, shown.Holds "vector" value ∧
        Decoder.option (.list .single) (depth - 1) value = some none :=
      hshownVector.imp (fun hlacks => ⟨hlacks, rfl⟩) fun hnull => ⟨_, hnull, rfl⟩
    obtain ⟨point, hpoint, hrecord⟩ := pointDecoder_eq_some hshownPayload hpayload hnone (by omega)
    exact ⟨point, hpoint, hrecord⟩

end RemoteStore

end Memory

end Orchestration
