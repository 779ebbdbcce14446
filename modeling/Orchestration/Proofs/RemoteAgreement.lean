import Orchestration.Proofs.PointClient
import Orchestration.Proofs.StoreStates

/-!
# A store behind the network as a map

Against a server that keeps points, a store behind the network answers as a map from collections and keys to records
does. Records are found as they were filed, bit for bit and character for character; a batch with a vector of the wrong
length changes nothing; and collections and keys that are not there are answered as every store answers them.

* `Volatile.answerAtOnce` — the map: a volatile store that takes batches as a whole, with vectors of one length.
* `Volatile.get?_withFiled` — what it holds of a batch under a key is the last record there.
* `Represents` — the points of a server are those of the records of a map; each change of the one goes with a change of
  the other.
* `RemoteStore.answer_meets` — a call is answered as the map answers it, and leaves points of what the map holds then.
* `RemoteStore.carryOut_meets` — so is any list of calls.
-/

namespace Orchestration

open Memory Number Http Text

namespace Memory

/-! ### The map -/

namespace Volatile

/-- The records of a collection, with others filed among them in order. -/
def withFiled (held : Dictionary Record) (records : List Record) : Dictionary Record :=
  records.foldl (fun held r => held.insert r.effectiveKey r.filed) held

/-- **The last record** of a batch under a key is the one that is held there; where the batch has none, the one from
before is. -/
theorem get?_withFiled (held : Dictionary Record) (records : List Record) (key : String) :
    (withFiled held records).get? key =
      ((records.reverse.find? (·.effectiveKey = key)).map (·.filed)).or (held.get? key) := by
  induction records generalizing held with
  | nil => rfl
  | cons r records ih =>
    have hcons : withFiled held (r :: records) = withFiled (held.insert r.effectiveKey r.filed) records := rfl
    rw [hcons, ih, Dictionary.get?_insert, List.reverse_cons, List.find?_append]
    cases records.reverse.find? (·.effectiveKey = key) with
    | some last => rfl
    | none =>
      by_cases hkey : r.effectiveKey = key
      · rw [if_pos hkey.symm, List.find?_cons_of_pos (by simpa using hkey)]
        rfl
      · rw [if_neg (Ne.symm hkey), List.find?_cons_of_neg (by simpa using hkey)]
        rfl

/-- Files records all at once: either all of their vectors have the length that is asked for, or nothing changes. -/
def fileAtOnce (store : Volatile) (size : ℕ) (collection : String) (records : List Record) :
    Except MemoryError (List String) × Volatile :=
  match store.collections.get? collection, RemoteStore.misfit? size records with
  | none, _ => (.error (.collectionNotFound collection), store)
  | some _, some r => (.error (.dimensionMismatch size r.embedding.length), store)
  | some held, none =>
    (.ok (records.map (·.effectiveKey)), ⟨store.collections.insert collection (withFiled held records)⟩)

/-- The answer of a map from collections and keys to records whose vectors have one length, and the map after it. -/
def answerAtOnce (size : ℕ) (store : Volatile) : (call : Call) → Except MemoryError call.Answer × Volatile
  | .upsert collection record =>
    ((store.fileAtOnce size collection [record]).1.map fun _ => record.effectiveKey,
      (store.fileAtOnce size collection [record]).2)
  | .upsertBatch collection records => store.fileAtOnce size collection records
  | call => store.answer call

end Volatile

/-- The answers to calls made one after the other. -/
def stepsOf {σ : Type} (respond : Responder σ) : σ → List Call → List StoreStep
  | _, [] => []
  | s, call :: calls => ⟨call, (respond s call).1⟩ :: stepsOf respond (respond s call).2 calls

/-! ### Points of records -/

theorem Record.filed_filed (r : Record) : r.filed.filed = r.filed := by
  rw [filed, effectiveKey_filed]
  rfl

namespace RemoteStore

theorem pointJson_filed (r : Record) : pointJson r.filed = pointJson r := by
  rw [pointJson, payloadJson, r.effectiveKey_filed]
  rfl

/-- Every record that can be put into a document has a point. -/
theorem exists_point {r : Record} (h : r.Writable) : ∃ tree, (pointJson r).source? = some tree := by
  obtain ⟨trees, hvector, -⟩ := exists_vectorSource h.finite
  exact ⟨_, pointJson_source? hvector⟩

/-- A point goes on its shelf under the id of the key. -/
theorem shelve_point {r : Record} {tree : Source} (h : KeptAs r tree) (shelf : Dictionary Source) :
    shelve shelf tree = shelf.insert (pointId r.effectiveKey) tree := by
  obtain ⟨trees, hvector, -⟩ := exists_vectorSource h.1.finite
  obtain rfl := Option.some.inj (h.2.symm.trans (pointJson_source? hvector))
  have hid : (Decoder.record ["id"] fun f => f.required "id" .string).run (pointSource r (.array trees)) =
      some (pointId r.effectiveKey) := by
    rw [Decoder.run, Decoder.record_of_holds (holds_pointSource r _).1 _ (by decide)]
    rfl
  rw [shelve, hid]

end RemoteStore

open RemoteStore

/-! ### Collections -/

/-- The points of a collection are those of its records, under the ids of the known keys. -/
structure Shelved (known : List String) (records : Dictionary Record) (shelf : Dictionary Source) : Prop where
  /-- records are held as they are filed, and can be put into documents -/
  filed : ∀ key record, records.get? key = some record → record.filed = record ∧ record.Writable
  /-- what is under the id of a key is the point of the record under the key -/
  points : ∀ key ∈ known, shelf.get? (pointId key) = (records.get? key).bind fun r => (pointJson r).source?

/-- No two known keys have one id. -/
def DistinctIds (known : List String) : Prop :=
  ∀ key ∈ known, ∀ other ∈ known, pointId key = pointId other → key = other

namespace Shelved

variable {known keys : List String} {records : Dictionary Record} {shelf : Dictionary Source}

theorem empty (known : List String) : Shelved known ∅ ∅ where
  filed _ _ h := by cases h
  points _ _ := rfl

theorem insert (h : Shelved known records shelf) (hids : DistinctIds known) {r : Record} {tree : Source}
    (hknown : r.effectiveKey ∈ known) (htree : KeptAs r tree) :
    Shelved known (records.insert r.effectiveKey r.filed) (shelve shelf tree) where
  filed key record hget := by
    rw [Dictionary.get?_insert] at hget
    split at hget
    · obtain rfl := Option.some.inj hget
      exact ⟨r.filed_filed, htree.1.filed⟩
    · exact h.filed key record hget
  points key hkey := by
    rw [shelve_point htree, Dictionary.get?_insert, Dictionary.get?_insert]
    by_cases hsame : key = r.effectiveKey
    · rw [if_pos hsame, if_pos (congrArg pointId hsame), Option.bind_some, pointJson_filed, htree.2]
    · rw [if_neg hsame, if_neg fun hid => hsame (hids key hkey _ hknown hid), h.points key hkey]

/-- A batch that is filed is put. -/
theorem insertAll (h : Shelved known records shelf) (hids : DistinctIds known) {added : List Record}
    (hknown : ∀ r ∈ added, r.effectiveKey ∈ known) (hwritable : ∀ r ∈ added, r.Writable) :
    ∃ trees, Json.itemSources? (added.map pointJson) = some trees ∧
      Shelved known (Volatile.withFiled records added) (trees.foldl shelve shelf) := by
  induction added generalizing records shelf with
  | nil => exact ⟨[], rfl, h⟩
  | cons r added ih =>
    obtain ⟨tree, htree⟩ := exists_point (hwritable r List.mem_cons_self)
    have hfirst := h.insert hids (hknown r List.mem_cons_self) ⟨hwritable r List.mem_cons_self, htree⟩
    obtain ⟨trees, htrees, hrest⟩ := ih hfirst (fun x hx => hknown x (List.mem_cons_of_mem r hx))
      fun x hx => hwritable x (List.mem_cons_of_mem r hx)
    refine ⟨tree :: trees, ?_, hrest⟩
    rw [List.map_cons, Json.itemSources?, htree, htrees]

theorem erase (h : Shelved known records shelf) (hids : DistinctIds known) {key : String} (hknown : key ∈ known) :
    Shelved known (records.erase key) (shelf.erase (pointId key)) where
  filed other record hget := by
    by_cases hsame : other = key
    · rw [hsame, Dictionary.get?_erase_self] at hget
      cases hget
    · rw [Dictionary.get?_erase_ne _ hsame] at hget
      exact h.filed other record hget
  points other hother := by
    by_cases hsame : other = key
    · rw [hsame, Dictionary.get?_erase_self, Dictionary.get?_erase_self, Option.bind_none]
    · have hid : pointId other ≠ pointId key := fun hid => hsame (hids other hother key hknown hid)
      rw [Dictionary.get?_erase_ne _ hsame, Dictionary.get?_erase_ne _ hid, h.points other hother]

theorem eraseAll (h : Shelved known records shelf) (hids : DistinctIds known) (hknown : ∀ key ∈ keys, key ∈ known) :
    Shelved known (keys.foldl (·.erase ·) records) ((keys.map pointId).foldl (·.erase ·) shelf) := by
  induction keys generalizing records shelf with
  | nil => exact h
  | cons key keys ih =>
    exact ih (h.erase hids (hknown key List.mem_cons_self)) fun other hother =>
      hknown other (List.mem_cons_of_mem key hother)

/-- The points that are asked for are those of the records under the keys. -/
theorem keptAs (h : Shelved known records shelf) (hknown : ∀ key ∈ keys, key ∈ known) :
    List.Forall₂ KeptAs (keys.filterMap records.get?) ((keys.map pointId).filterMap shelf.get?) := by
  induction keys with
  | nil => exact .nil
  | cons key keys ih =>
    have hrest := ih fun other hother => hknown other (List.mem_cons_of_mem key hother)
    have hpoint := h.points key (hknown key List.mem_cons_self)
    rw [List.map_cons, List.filterMap_cons, List.filterMap_cons, hpoint]
    cases hget : records.get? key with
    | none => exact hrest
    | some r =>
      obtain ⟨-, hwritable⟩ := h.filed key r hget
      obtain ⟨tree, htree⟩ := exists_point hwritable
      simp only [Option.bind_some, htree]
      exact .cons ⟨hwritable, htree⟩ hrest

end Shelved

/-! ### Stores -/

namespace Volatile

variable {v : Volatile} {name : String} {records : Dictionary Record}

/-- Records that are taken away one by one are taken away from their collection. -/
theorem foldl_remove (h : v.collections.get? name = some records) (keys : List String) :
    keys.foldl (·.remove name ·) v = ⟨v.collections.insert name (keys.foldl (·.erase ·) records)⟩ := by
  induction keys generalizing v records with
  | nil =>
    have hsame : v.collections.insert name records = v.collections := by
      refine Dictionary.ext_get? fun other => ?_
      rw [Dictionary.get?_insert]
      split
      · next heq => rw [heq, h]
      · rfl
    rw [List.foldl_nil, List.foldl_nil, hsame]
  | cons key keys ih =>
    have hremove : v.remove name key = ⟨v.collections.insert name (records.erase key)⟩ := by rw [remove, h]
    have htwice : ∀ later : Dictionary Record,
        (v.collections.insert name (records.erase key)).insert name later = v.collections.insert name later := by
      refine fun later => Dictionary.ext_get? fun other => ?_
      rw [Dictionary.get?_insert, Dictionary.get?_insert, Dictionary.get?_insert]
      split <;> rfl
    have hget : (v.collections.insert name (records.erase key)).get? name = some (records.erase key) :=
      Dictionary.get?_insert_self ..
    rw [List.foldl_cons, hremove, ih (v := ⟨v.collections.insert name (records.erase key)⟩) hget, htwice,
      List.foldl_cons]

theorem foldl_remove_of_none (h : v.collections.get? name = none) (keys : List String) :
    keys.foldl (·.remove name ·) v = v := by
  induction keys with
  | nil => rfl
  | cons key keys ih =>
    have hremove : v.remove name key = v := by rw [remove, h]
    rw [List.foldl_cons, hremove, ih]

end Volatile

/-- The server has the collections of the map, with the points of their records. -/
structure Represents (known : List String) (v : Volatile) (shelves : Shelves) : Prop where
  /-- the collections are the same -/
  contains : ∀ name, shelves.contains name = v.collections.contains name
  /-- the points of each are those of its records -/
  shelved : ∀ name records shelf, v.collections.get? name = some records → shelves.get? name = some shelf →
    Shelved known records shelf

namespace Represents

variable {known : List String} {v : Volatile} {before : Shelves} {name : String}

theorem empty (known : List String) : Represents known ∅ ∅ where
  contains _ := rfl
  shelved _ _ _ h := by cases h

/-- A collection is there in both or in neither. -/
theorem cases_get? (h : Represents known v before) (name : String) :
    (v.collections.get? name = none ∧ before.get? name = none) ∨ ∃ records shelf,
      v.collections.get? name = some records ∧ before.get? name = some shelf ∧ Shelved known records shelf := by
  have hname := h.contains name
  rw [Dictionary.contains, Dictionary.contains] at hname
  cases hv : v.collections.get? name with
  | none =>
    rw [hv] at hname
    exact .inl ⟨rfl, Option.not_isSome_iff_eq_none.mp (by rw [hname]; exact Bool.false_ne_true)⟩
  | some records =>
    rw [hv] at hname
    obtain ⟨shelf, hshelf⟩ := Option.isSome_iff_exists.mp hname
    exact .inr ⟨records, shelf, rfl, hshelf, h.shelved name records shelf hv hshelf⟩

theorem insert (h : Represents known v before) {records : Dictionary Record} {shelf : Dictionary Source}
    (hshelved : Shelved known records shelf) (name : String) :
    Represents known ⟨v.collections.insert name records⟩ (before.insert name shelf) where
  contains other := by rw [Dictionary.contains_insert, Dictionary.contains_insert, h.contains]
  shelved other found kept hfound hkept := by
    rw [Dictionary.get?_insert] at hfound hkept
    by_cases hsame : other = name
    · rw [if_pos hsame] at hfound hkept
      obtain rfl := Option.some.inj hfound
      obtain rfl := Option.some.inj hkept
      exact hshelved
    · rw [if_neg hsame] at hfound hkept
      exact h.shelved other found kept hfound hkept

theorem erase (h : Represents known v before) (name : String) :
    Represents known ⟨v.collections.erase name⟩ (before.erase name) where
  contains other := by rw [Dictionary.contains_erase, Dictionary.contains_erase, h.contains]
  shelved other found kept hfound hkept := by
    by_cases hsame : other = name
    · rw [hsame, Dictionary.get?_erase_self] at hfound
      cases hfound
    · rw [Dictionary.get?_erase_ne _ hsame] at hfound hkept
      exact h.shelved other found kept hfound hkept

end Represents

/-! ### Calls -/

/-- The records that a call files. -/
def Call.records : Call → List Record
  | .upsert _ record => [record]
  | .upsertBatch _ records => records
  | _ => []

/-- The keys that a call is about. -/
def Call.keys : Call → List String
  | .get _ key _ | .remove _ key => [key]
  | .getBatch _ keys _ | .removeBatch _ keys => keys
  | call => call.records.map (·.effectiveKey)

/-- Whether a call compares vectors. -/
def Call.isSearch : Call → Bool
  | .nearest .. => true
  | _ => false

/-- A call that can be answered without comparing vectors, with a name that is accepted and records that can be put
into documents. -/
structure Call.Accepted (call : Call) : Prop where
  /-- the call is no search -/
  noSearch : call.isSearch = false
  /-- the name is accepted -/
  name : ∀ name, call.collection? = some name → ¬Misleads name
  /-- the records can be put into documents -/
  records : ∀ r ∈ call.records, r.Writable

namespace RemoteStore

variable {s : RemoteStore} {known keys : List String} {v : Volatile} {before : Shelves} {name : String}

/-- Whatever is read from a collection is read from the map. -/
theorem getAll_meets (h : Represents known v before) (hname : ¬Misleads name) (hknown : ∀ key ∈ keys, key ∈ known)
    (withVectors : Bool) :
    Meets s.baseUrl (s.getAll name keys withVectors) before fun outcome after =>
      outcome = .ok (keys.filterMap (v.get name · withVectors)) ∧ after = before := by
  rcases h.cases_get? name with ⟨hv, hbefore⟩ | ⟨records, shelf, hv, hbefore, hshelved⟩
  · have hnothing : keys.filterMap (v.get name · withVectors) = [] :=
      List.filterMap_eq_nil_iff.mpr fun key _ => by rw [Volatile.get, hv]; rfl
    have hkept : ∀ shelf, before.get? name = some shelf →
        List.Forall₂ KeptAs [] ((keys.map pointId).filterMap shelf.get?) := by
      intro shelf hshelf
      rw [hbefore] at hshelf
      cases hshelf
    refine (meets_getAll hname withVectors hkept).mono fun outcome after => ?_
    rw [Dictionary.contains_of_get?_eq_none hbefore, hnothing]
    exact id
  · have hcontains : before.contains name = true := Dictionary.contains_of_get? hbefore
    have hkept : ∀ other, before.get? name = some other →
        List.Forall₂ KeptAs (keys.filterMap records.get?) ((keys.map pointId).filterMap other.get?) := by
      intro other hother
      obtain rfl := Option.some.inj (hbefore.symm.trans hother)
      exact hshelved.keptAs hknown
    have hfound : ((keys.filterMap records.get?).map fun r => r.filed.shown withVectors) =
        keys.filterMap (v.get name · withVectors) := by
      rw [List.map_filterMap]
      refine List.filterMap_congr fun key _ => ?_
      rw [Volatile.get, hv, Option.bind_some]
      cases hget : records.get? key with
      | none => rfl
      | some r => rw [Option.map_some, Option.map_some, (hshelved.filed key r hget).1]
    refine (meets_getAll hname withVectors hkept).mono fun outcome after => ?_
    rw [hcontains, if_pos rfl, hfound]
    exact id

/-- Whatever is filed is filed in the map. -/
theorem upsertAll_meets (h : Represents known v before) (hids : DistinctIds known) (hname : ¬Misleads name)
    {records : List Record} (hknown : ∀ r ∈ records, r.effectiveKey ∈ known) (hwritable : ∀ r ∈ records, r.Writable) :
    Meets s.baseUrl (s.upsertAll name records) before fun outcome after =>
      outcome = (v.fileAtOnce s.vectorSize name records).1 ∧
        Represents known (v.fileAtOnce s.vectorSize name records).2 after := by
  rcases h.cases_get? name with ⟨hv, hbefore⟩ | ⟨held, shelf, hv, hbefore, hshelved⟩
  · obtain ⟨trees, htrees, -⟩ := (Shelved.empty known).insertAll hids hknown hwritable
    refine (meets_upsertAll hname htrees).mono fun outcome after => ?_
    rw [Volatile.fileAtOnce, hv, hbefore]
    rintro ⟨rfl, rfl⟩
    exact ⟨rfl, h⟩
  · obtain ⟨trees, htrees, hfiled⟩ := hshelved.insertAll hids hknown hwritable
    refine (meets_upsertAll hname htrees).mono fun outcome after => ?_
    rw [Volatile.fileAtOnce, hv, hbefore]
    cases misfit? s.vectorSize records with
    | some r =>
      rintro ⟨rfl, rfl⟩
      exact ⟨rfl, h⟩
    | none =>
      rintro ⟨rfl, rfl⟩
      exact ⟨rfl, h.insert hfiled name⟩

/-- Whatever is taken away is taken away from the map. -/
theorem removeAll_meets (h : Represents known v before) (hids : DistinctIds known) (hname : ¬Misleads name)
    (hknown : ∀ key ∈ keys, key ∈ known) :
    Meets s.baseUrl (s.removeAll name keys) before fun outcome after =>
      outcome = .ok () ∧ Represents known (keys.foldl (·.remove name ·) v) after := by
  refine (meets_removeAll hname keys).mono fun outcome after => ?_
  rcases h.cases_get? name with ⟨hv, hbefore⟩ | ⟨held, shelf, hv, hbefore, hshelved⟩
  · rw [hbefore, Volatile.foldl_remove_of_none hv]
    rintro ⟨rfl, rfl⟩
    exact ⟨rfl, h⟩
  · rw [hbefore, Volatile.foldl_remove hv]
    rintro ⟨rfl, rfl⟩
    exact ⟨rfl, h.insert (hshelved.eraseAll hids hknown) name⟩

theorem create_meets (h : Represents known v before) (hname : ¬Misleads name) :
    Meets s.baseUrl (s.answer (.create name)) before fun outcome after =>
      outcome = (v.answer (.create name)).1 ∧ Represents known (v.answer (.create name)).2 after := by
  have hblank : ¬isBlankText name = true := by
    have haccepted := isCollectionName_iff.mpr hname
    rw [isCollectionName] at haccepted
    intro hblank
    simp [hblank] at haccepted
  refine (meets_create hname).mono fun outcome after => ?_
  rcases h.cases_get? name with ⟨hv, hbefore⟩ | ⟨held, shelf, hv, hbefore, hshelved⟩
  · have hanswer : v.answer (.create name) = (.ok (), ⟨v.collections.insert name ∅⟩) := by
      rw [Volatile.answer, if_neg hblank, hv]
    rw [hanswer, Dictionary.contains_of_get?_eq_none hbefore]
    rintro ⟨rfl, rfl⟩
    exact ⟨rfl, h.insert (Shelved.empty known) name⟩
  · have hanswer : v.answer (.create name) = (.ok (), v) := by rw [Volatile.answer, if_neg hblank, hv]
    rw [hanswer, Dictionary.contains_of_get? hbefore]
    rintro ⟨rfl, rfl⟩
    exact ⟨rfl, h⟩

theorem delete_meets (h : Represents known v before) (hname : ¬Misleads name) :
    Meets s.baseUrl (s.answer (.delete name)) before fun outcome after =>
      outcome = (v.answer (.delete name)).1 ∧ Represents known (v.answer (.delete name)).2 after := by
  refine (meets_delete hname).mono fun outcome after => ?_
  rw [Volatile.answer, h.contains]
  cases v.collections.contains name with
  | true =>
    rintro ⟨rfl, rfl⟩
    exact ⟨rfl, h.erase name⟩
  | false =>
    rintro ⟨rfl, rfl⟩
    exact ⟨rfl, h⟩

theorem upsert_meets (h : Represents known v before) (hids : DistinctIds known) (hname : ¬Misleads name) {r : Record}
    (hknown : r.effectiveKey ∈ known) (hwritable : r.Writable) :
    Meets s.baseUrl (s.answer (.upsert name r)) before fun outcome after =>
      outcome = (v.fileAtOnce s.vectorSize name [r]).1.map (fun _ => r.effectiveKey) ∧
        Represents known (v.fileAtOnce s.vectorSize name [r]).2 after := by
  have hfiled := upsertAll_meets (s := s) h hids hname (List.forall_mem_singleton.mpr hknown)
    (List.forall_mem_singleton.mpr hwritable)
  refine meets_bind _ hfiled ?_ ?_
  · rintro keys after ⟨hkeys, hafter⟩
    refine meets_pure ⟨?_, hafter⟩
    rw [← hkeys]
    rfl
  · rintro e after ⟨he, hafter⟩
    refine ⟨?_, hafter⟩
    rw [← he]
    rfl

theorem get_meets (h : Represents known v before) (hname : ¬Misleads name) {key : String} (hknown : key ∈ known)
    (withVector : Bool) :
    Meets s.baseUrl (s.answer (.get name key withVector)) before fun outcome after =>
      outcome = .ok (v.get name key withVector) ∧ after = before := by
  have hget := getAll_meets (s := s) h hname (List.forall_mem_singleton.mpr hknown) withVector
  refine meets_bind_known hget ?_ fun e he => by cases he
  rintro found hfound
  obtain rfl := Except.ok.inj hfound
  refine meets_pure ⟨congrArg Except.ok ?_, rfl⟩
  rw [List.filterMap_cons]
  cases v.get name key withVector <;> rfl

/-- **A call** is answered as the map answers it, and leaves the points of what the map holds then. -/
theorem answer_meets (h : Represents known v before) (hids : DistinctIds known) {call : Call} (hcall : call.Accepted)
    (hknown : ∀ key ∈ call.keys, key ∈ known) :
    Meets s.baseUrl (s.answer call) before fun outcome after =>
      outcome = (v.answerAtOnce s.vectorSize call).1 ∧ Represents known (v.answerAtOnce s.vectorSize call).2 after := by
  have hname := hcall.name
  have hrecords := hcall.records
  cases call with
  | create name => exact create_meets h (hname name rfl)
  | collections =>
    refine meets_collections.mono fun outcome after => ?_
    rintro ⟨rfl, rfl⟩
    exact ⟨congrArg Except.ok (Dictionary.names_eq_of_contains h.contains), h⟩
  | delete name => exact delete_meets h (hname name rfl)
  | holds name =>
    refine (meets_holds (hname name rfl)).mono fun outcome after => ?_
    rintro ⟨rfl, rfl⟩
    exact ⟨congrArg Except.ok (h.contains name), h⟩
  | upsert name r =>
    exact upsert_meets h hids (hname name rfl) (hknown _ (List.mem_singleton.mpr rfl))
      (hrecords r (List.mem_singleton.mpr rfl))
  | upsertBatch name records =>
    exact upsertAll_meets h hids (hname name rfl) (fun r hr => hknown _ (List.mem_map_of_mem hr)) hrecords
  | get name key withVector =>
    have hkey : key ∈ known := hknown key (List.mem_singleton.mpr rfl)
    refine (get_meets h (hname name rfl) hkey withVector).mono fun outcome after => ?_
    rintro ⟨rfl, rfl⟩
    exact ⟨rfl, h⟩
  | getBatch name keys withVectors =>
    refine (getAll_meets h (hname name rfl) hknown withVectors).mono fun outcome after => ?_
    rintro ⟨rfl, rfl⟩
    exact ⟨rfl, h⟩
  | remove name key => exact removeAll_meets h hids (hname name rfl) hknown
  | removeBatch name keys => exact removeAll_meets h hids (hname name rfl) hknown
  | nearest name query limit least withVectors => cases hcall.noSearch

/-! ### Lists of calls -/

/-- Makes calls one after the other, and keeps how each is answered. -/
def carryOut (s : RemoteStore) : List Call → Effect MemoryError (List StoreStep)
  | [] => return []
  | call :: calls => do
    let answer ← (s.answer call).attempt
    let steps ← s.carryOut calls
    return ⟨call, answer⟩ :: steps

theorem carryOut_of_represents (hids : DistinctIds known) {calls : List Call} (h : Represents known v before)
    (hcalls : ∀ call ∈ calls, call.Accepted) (hknown : ∀ call ∈ calls, ∀ key ∈ call.keys, key ∈ known) :
    Meets s.baseUrl (s.carryOut calls) before fun outcome _ =>
      outcome = .ok (stepsOf (Volatile.answerAtOnce s.vectorSize) v calls) := by
  induction calls generalizing v before with
  | nil => exact meets_pure rfl
  | cons call calls ih =>
    have hfirst := answer_meets (s := s) h hids (hcalls call List.mem_cons_self) (hknown call List.mem_cons_self)
    refine meets_bind _ (meets_attempt hfirst) ?_ ?_
    · rintro _ middle ⟨answer, hsame, rfl, hmiddle⟩
      obtain rfl := Except.ok.inj hsame
      have hrest := ih hmiddle (fun other hother => hcalls other (List.mem_cons_of_mem call hother))
        fun other hother => hknown other (List.mem_cons_of_mem call hother)
      refine meets_bind _ hrest ?_ ?_
      · rintro steps after hsteps
        obtain rfl := Except.ok.inj hsteps
        exact meets_pure rfl
      · rintro e after hfail
        cases hfail
    · rintro e middle ⟨answer, hfail, -⟩
      cases hfail

/-- **Any list of calls** without searches, with names that are accepted and records that can be put into documents, is
answered as a map answers it from which nothing was filed yet: against any server that keeps points and has none, as
far as no two keys of the calls have one id. -/
theorem carryOut_meets (s : RemoteStore) {calls : List Call} (hcalls : ∀ call ∈ calls, call.Accepted)
    (hids : DistinctIds (calls.flatMap Call.keys)) :
    Meets s.baseUrl (s.carryOut calls) ∅ fun outcome _ =>
      outcome = .ok (stepsOf (Volatile.answerAtOnce s.vectorSize) ∅ calls) :=
  carryOut_of_represents hids (Represents.empty _) hcalls fun call hcall _ hkey =>
    List.mem_flatMap.mpr ⟨call, hcall, hkey⟩

/-- A note with a vector and a time. -/
def timedNote (id : String) (vector : Vector) : Record where
  metadata := { id, text := "\"one\"\n", isReference := true }
  embedding := vector
  timestamp := some ⟨1704070830, 500000000⟩

/-- Calls of all kinds but searches: a record in place of another, a batch with a vector of the wrong length, keys
asked for twice or not there, a collection that is taken away. -/
def remoteCalls : List Call :=
  let note := timedNote "a" [⟨0x3dcccccd⟩, ⟨0x80000000⟩, ⟨1⟩]
  let other := timedNote "b" [⟨0x7f7fffff⟩, ⟨0⟩, ⟨0xc0490fdb⟩]
  [.upsert "notes" note, .create "notes", .holds "notes", .upsert "notes" { note with embedding := other.embedding },
    .upsertBatch "notes" [other, note],
    .upsertBatch "notes" [{ other with metadata := {} }, { note with embedding := [] }],
    .getBatch "notes" ["b", "x", "a", "b"] true, .remove "notes" "b", .get "notes" "b" true, .get "notes" "a" false,
    .collections, .removeBatch "notes" ["x", "a"], .delete "notes", .get "notes" "a" true, .delete "notes"]

theorem remoteCalls_accepted : ∀ call ∈ remoteCalls, call.Accepted := by
  have hsearch : ∀ call ∈ remoteCalls, call.isSearch = false := by decide
  have hnames : ∀ call ∈ remoteCalls, ∀ name ∈ call.collection?, isCollectionName name = true := by decide +kernel
  have hrecords : ∀ call ∈ remoteCalls, ∀ r ∈ call.records,
      (∀ x ∈ r.embedding, x.isFinite = true) ∧ ∀ t ∈ r.timestamp, t.Sound := by decide +kernel
  exact fun call hcall => ⟨hsearch call hcall, fun name hname => isCollectionName_iff.mp (hnames call hcall name hname),
    fun r hr => ⟨(hrecords call hcall r hr).1, (hrecords call hcall r hr).2⟩⟩

theorem carryOut_meets_remoteCalls :
    (∀ call ∈ remoteCalls, call.Accepted) ∧ DistinctIds (remoteCalls.flatMap Call.keys) ∧
      Meets localServer.baseUrl (localServer.carryOut remoteCalls) ∅ fun outcome _ =>
        outcome = .ok (stepsOf (Volatile.answerAtOnce 3) ∅ remoteCalls) := by
  have hids : DistinctIds (remoteCalls.flatMap Call.keys) := by
    unfold DistinctIds
    decide +kernel
  exact ⟨remoteCalls_accepted, hids, carryOut_meets localServer remoteCalls_accepted hids⟩

end RemoteStore

end Memory

end Orchestration
