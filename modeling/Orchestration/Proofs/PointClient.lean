import Orchestration.Proofs.PointServer

/-!
# What a client makes of a server of points

Each call of the client, against a server that keeps points: what the call comes to, and what the server keeps then.

* `RemoteStore.meets_holds`, `RemoteStore.meets_require_bind` — a collection is asked about before anything else.
* `RemoteStore.meets_create`, `RemoteStore.meets_delete`, `RemoteStore.meets_collections` — collections.
* `RemoteStore.meets_upsertAll` — a batch is filed as a whole or not at all.
* `RemoteStore.meets_getAll` — the records of the points that are kept come back.
* `RemoteStore.meets_removeAll` — points are taken away.
-/

namespace Orchestration

open Memory Number Http

/-! ### Lists -/

/-- The names of a dictionary, in any order, are sorted into its order. -/
theorem Dictionary.mergeSort_names {α : Type} {d : Dictionary α} {names : List String} (h : names.Perm d.names) :
    names.mergeSort (fun a b => a ≤ b) = d.names := by
  have hsorted : (names.mergeSort fun a b => a ≤ b).Pairwise fun a b => decide (a ≤ b) = true := by
    refine List.pairwise_mergeSort (fun a b c hab hbc => ?_) (fun a b => ?_) names
    · exact decide_eq_true (String.le_trans (of_decide_eq_true hab) (of_decide_eq_true hbc))
    · rw [Bool.or_eq_true, decide_eq_true_eq, decide_eq_true_eq]
      exact String.le_total a b
  have hordered : d.names.Pairwise fun a b => decide (a ≤ b) = true :=
    List.pairwise_map.mpr (d.ordered.imp fun hlt => decide_eq_true (String.not_lt.mp (String.lt_asymm hlt)))
  refine List.Perm.eq_of_pairwise (fun a b _ _ hab hba => ?_) hsorted hordered ((List.mergeSort_perm _ _).trans h)
  exact String.le_antisymm (of_decide_eq_true hab) (of_decide_eq_true hba)

namespace Memory

variable {before : Shelves} {name : String}

/-! ### Answers that there are -/

/-- A response that reports a document. -/
def reporting (result : Json) : Response := ⟨200, (Json.ofFields [("result", result)]).compact⟩

namespace RemoteStore

theorem reports_reporting {result : Json} {tree : Source} (h : result.source? = some tree) :
    Reports (reporting result) tree :=
  ⟨rfl, _, Source.read?_compact (ofFields_source? "result" h), holds_singleton _ _⟩

theorem acknowledges_reporting : Acknowledges (reporting (.bool true)) :=
  ⟨.bool true, reports_reporting rfl, rfl⟩

/-- About a collection something can always be said. -/
theorem exists_onShelf {found : Response → Shelves → Dictionary Source → Prop}
    (h : ∀ shelf, before.get? name = some shelf → ∃ r after, found r after shelf) :
    ∃ r after, OnShelf before name r after (found r after) := by
  cases hshelf : before.get? name with
  | none =>
    refine ⟨⟨404, ""⟩, before, ?_⟩
    rw [OnShelf, hshelf]
    exact ⟨rfl, rfl⟩
  | some shelf =>
    obtain ⟨r, after, hfound⟩ := h shelf hshelf
    refine ⟨r, after, ?_⟩
    rw [OnShelf, hshelf]
    exact hfound

theorem onShelf_of_get? {shelf : Dictionary Source} {r : Response} {after : Shelves}
    {found : Dictionary Source → Prop} (hshelf : before.get? name = some shelf) :
    OnShelf before name r after found ↔ found shelf := by
  rw [OnShelf, hshelf]

/-! ### Collections -/

variable {s : RemoteStore}

/-- **Whether a collection is there.** -/
theorem meets_holds (hname : ¬Misleads name) :
    Meets s.baseUrl (s.holds name) before fun outcome after =>
      outcome = .ok (before.contains name) ∧ after = before := by
  have hread : PointCommand.read? "GET" (pathParts (address name ""))
      (((none : Option Json).map (·.compact)).bind Source.read?) = some (.probe name) := by
    rw [pathParts_collection hname]
    rfl
  have hsome : ∃ r after, (PointCommand.probe name).Answered before r after :=
    exists_onShelf fun shelf _ => ⟨⟨200, ""⟩, before, rfl, rfl⟩
  rw [holds, collectionPath_of_not_misleads hname, Effect.ofExcept_ok_bind]
  refine meets_bind (fun outcome after => ∃ response, outcome = .ok response ∧
    (PointCommand.probe name).Answered before response after)
    (meets_exchange hread hsome fun response after h => ⟨response, rfl, h⟩) ?_ ?_
  · rintro response middle ⟨_, hsame, hanswered⟩
    obtain rfl := Except.ok.inj hsame
    rw [PointCommand.Answered, OnShelf] at hanswered
    split at hanswered
    · next hnone =>
      obtain ⟨hstatus, rfl⟩ := hanswered
      have hmissing : response.isSuccess = false := by rw [Response.isSuccess, hstatus]; rfl
      rw [if_neg (by rw [hmissing]; exact Bool.false_ne_true), if_pos hstatus]
      exact meets_pure ⟨by rw [Dictionary.contains_of_get?_eq_none hnone], rfl⟩
    · next shelf hshelf =>
      obtain ⟨hsuccess, rfl⟩ := hanswered
      rw [if_pos hsuccess]
      exact meets_pure ⟨by rw [Dictionary.contains_of_get? hshelf], rfl⟩
  · rintro e middle ⟨response, hfail, -⟩
    cases hfail

section Asking

variable {α : Type} {post : Except MemoryError α → Shelves → Prop}

/-- A call that asks goes on with the answer. -/
theorem meets_holds_bind {f : Bool → Effect MemoryError α} (hname : ¬Misleads name)
    (hf : Meets s.baseUrl (f (before.contains name)) before post) :
    Meets s.baseUrl (s.holds name >>= f) before post := by
  refine meets_bind_known (meets_holds hname) ?_ fun e he => by cases he
  intro there hthere
  obtain rfl := Except.ok.inj hthere
  exact hf

/-- **A collection that has to be there**: a call goes on if it is, and fails if not. -/
theorem meets_require_bind {f : Unit → Effect MemoryError α} (hname : ¬Misleads name)
    (hthere : ∀ shelf, before.get? name = some shelf → Meets s.baseUrl (f ()) before post)
    (hmissing : before.get? name = none → post (.error (.collectionNotFound name)) before) :
    Meets s.baseUrl (s.require name >>= f) before post := by
  have hrequire : Meets s.baseUrl (s.require name) before fun outcome after =>
      outcome = (if before.contains name then .ok () else .error (.collectionNotFound name)) ∧ after = before := by
    refine meets_holds_bind hname ?_
    cases before.contains name with
    | true => exact meets_pure ⟨rfl, rfl⟩
    | false => exact meets_throw ⟨rfl, rfl⟩
  cases hshelf : before.get? name with
  | some shelf =>
    rw [Dictionary.contains_of_get? hshelf] at hrequire
    exact meets_bind_known hrequire (fun _ _ => hthere shelf hshelf) fun e he => by cases he
  | none =>
    rw [Dictionary.contains_of_get?_eq_none hshelf] at hrequire
    refine meets_bind_known hrequire (fun _ h => by cases h) fun e he => ?_
    obtain rfl := Except.error.inj he
    exact hmissing hshelf

end Asking

/-- A command that is acknowledged. -/
theorem meets_acknowledged {method path : String} {body : Option Json} {command : PointCommand}
    {post : Shelves → Prop}
    (hread : PointCommand.read? method (pathParts path) ((body.map (·.compact)).bind Source.read?) = some command)
    (hsome : ∃ r after, command.Answered before r after)
    (hpost : ∀ r after, command.Answered before r after → Acknowledges r ∧ post after) :
    Meets s.baseUrl (s.send method path body .json) before fun outcome after =>
      (∃ value, outcome = .ok value) ∧ post after := by
  refine meets_send hread hsome fun r after hanswered => ?_
  obtain ⟨⟨result, hreports, hdocument⟩, hmet⟩ := hpost r after hanswered
  obtain ⟨value, hvalue⟩ := Option.isSome_iff_exists.mp hdocument
  exact ⟨result, value, hreports, hvalue, ⟨value, rfl⟩, hmet⟩

/-- A call that ends with a command that is acknowledged. -/
theorem meets_acknowledged_bind {α : Type} {t : Effect MemoryError Json} {f : Json → Effect MemoryError α}
    {post : Shelves → Prop} {value : α} (ht : Meets s.baseUrl t before fun outcome after =>
      (∃ value, outcome = .ok value) ∧ post after) (hf : ∀ result, f result = pure value) :
    Meets s.baseUrl (t >>= f) before fun outcome after => outcome = .ok value ∧ post after := by
  refine meets_bind _ ht ?_ ?_
  · rintro result middle ⟨-, hmet⟩
    rw [hf result]
    exact meets_pure ⟨rfl, hmet⟩
  · rintro e middle ⟨⟨result, hfail⟩, -⟩
    cases hfail

/-- **A collection is made** if it is missing. -/
theorem meets_create (hname : ¬Misleads name) :
    Meets s.baseUrl (s.create name) before fun outcome after =>
      outcome = .ok () ∧ after = if before.contains name then before else before.insert name ∅ := by
  rw [create, collectionPath_of_not_misleads hname, Effect.ofExcept_ok_bind]
  refine meets_holds_bind hname ?_
  cases hcontains : before.contains name with
  | true => exact meets_pure ⟨rfl, rfl⟩
  | false =>
    have hread : ∀ body : Option Json, PointCommand.read? "PUT" (pathParts (address name ""))
        ((body.map (·.compact)).bind Source.read?) = some (.create name) := by
      intro body
      rw [pathParts_collection hname]
      rfl
    have hanswered : ∀ r after, (PointCommand.create name).Answered before r after ↔
        Acknowledges r ∧ after = before.insert name ∅ := by
      intro r after
      rw [PointCommand.Answered, hcontains]
      exact Iff.rfl
    exact meets_acknowledged_bind (meets_acknowledged (hread _)
      ⟨_, _, (hanswered _ _).mpr ⟨acknowledges_reporting, rfl⟩⟩ fun r after h => (hanswered r after).mp h)
      fun _ => rfl

/-- **A collection is taken away** if it is there. -/
theorem meets_delete (hname : ¬Misleads name) :
    Meets s.baseUrl (s.delete name) before fun outcome after =>
      if before.contains name then outcome = .ok () ∧ after = before.erase name
      else outcome = .error (.collectionNotFound name) ∧ after = before := by
  rw [delete, collectionPath_of_not_misleads hname, Effect.ofExcept_ok_bind]
  have hread : PointCommand.read? "DELETE" (pathParts (address name ""))
      (((none : Option Json).map (·.compact)).bind Source.read?) = some (.drop name) := by
    rw [pathParts_collection hname]
    rfl
  refine meets_require_bind hname (fun shelf hshelf => ?_) fun hnone => ?_
  · simp only [Dictionary.contains_of_get? hshelf, if_true]
    exact meets_acknowledged_bind (meets_acknowledged hread
      (exists_onShelf fun _ _ => ⟨_, _, acknowledges_reporting, rfl⟩)
      fun r after h => (onShelf_of_get? hshelf).mp h) fun _ => rfl
  · rw [Dictionary.contains_of_get?_eq_none hnone]
    exact ⟨rfl, rfl⟩

/-- **All collections** are named, in order. -/
theorem meets_collections :
    Meets s.baseUrl s.collections before fun outcome after => outcome = .ok before.names ∧ after = before := by
  have hread : PointCommand.read? "GET" (pathParts "/collections")
      (((none : Option Json).map (·.compact)).bind Source.read?) = some .list := rfl
  have hnamed : ∀ names : List String,
      Json.itemSources? (names.map fun name => .ofFields [("name", .string name)]) =
        some (names.map fun name => .named [("name", .string name)]) := by
    intro names
    induction names with
    | nil => rfl
    | cons name names ih => rw [List.map_cons, Json.itemSources?, ih, ofFields_source? "name" rfl, List.map_cons]
  have hsome : ∃ r after, PointCommand.list.Answered before r after := by
    have hlisted := ofFields_source? "collections" (array_source? (hnamed before.names))
    refine ⟨_, before, rfl, _, _, before.names, reports_reporting hlisted, holds_singleton _ _, ?_, .refl _⟩
    exact List.forall₂_map_right_iff.mpr (List.forall₂_same.mpr fun name _ => holds_singleton _ _)
  refine meets_bind (fun outcome after => ∃ names, outcome = .ok names ∧ names.Perm before.names ∧
    after = before) (meets_send hread hsome ?_) ?_ ?_
  · rintro r after ⟨rfl, result, items, names, hreports, hitems, hnames, hperm⟩
    refine ⟨result, names, hreports, ?_, names, rfl, hperm, rfl⟩
    rw [collectionsDecoder, Decoder.record_of_holds hitems _ (by decide)]
    refine mapM_eq_some_of_forall₂ (hnames.flip.imp fun item name hitem => ?_)
    rw [Decoder.record_of_holds hitem _ (by decide)]
    rfl
  · rintro _ _ ⟨names, hsame, hperm, rfl⟩
    obtain rfl := Except.ok.inj hsame
    exact meets_pure ⟨congrArg Except.ok (Dictionary.mergeSort_names hperm), rfl⟩
  · rintro e middle ⟨names, hfail, -⟩
    cases hfail

/-! ### Records -/

/-- The first record whose vector has the wrong length. -/
def misfit? (size : ℕ) (records : List Record) : Option Record := records.find? fun r => r.embedding.length ≠ size

theorem meets_checkLengths (records : List Record) :
    Meets s.baseUrl (records.forM fun r => s.checkLength r.embedding) before fun outcome after =>
      outcome = (match misfit? s.vectorSize records with
        | some r => .error (.dimensionMismatch s.vectorSize r.embedding.length)
        | none => .ok ()) ∧ after = before := by
  induction records with
  | nil => exact meets_pure ⟨rfl, rfl⟩
  | cons r records ih =>
    have hcons : ((r :: records).forM fun r => s.checkLength r.embedding) =
        s.checkLength r.embedding >>= fun _ => records.forM fun r => s.checkLength r.embedding := rfl
    rw [hcons, checkLength, misfit?]
    by_cases hlength : r.embedding.length = s.vectorSize
    · rw [if_neg (not_not.mpr hlength), List.find?_cons_of_neg (by simpa using hlength)]
      exact ih
    · rw [if_pos hlength, List.find?_cons_of_pos (by simpa using hlength)]
      exact meets_throw ⟨rfl, rfl⟩

/-- **A batch is filed** as a whole, or not at all. -/
theorem meets_upsertAll (hname : ¬Misleads name) {records : List Record} {trees : List Source}
    (htrees : Json.itemSources? (records.map pointJson) = some trees) :
    Meets s.baseUrl (s.upsertAll name records) before fun outcome after =>
      match before.get? name, misfit? s.vectorSize records with
      | none, _ => outcome = .error (.collectionNotFound name) ∧ after = before
      | some _, some r => outcome = .error (.dimensionMismatch s.vectorSize r.embedding.length) ∧ after = before
      | some shelf, none => outcome = .ok (records.map (·.effectiveKey)) ∧
          after = before.insert name (trees.foldl shelve shelf) := by
  refine meets_require_bind hname (fun shelf hshelf => ?_) fun hnone => ?_
  · simp only [hshelf]
    cases hmisfit : misfit? s.vectorSize records with
    | some r =>
      have hlengths := @meets_checkLengths before s records
      rw [hmisfit] at hlengths
      refine meets_bind_known hlengths (fun _ h => by cases h) fun e he => ?_
      obtain rfl := Except.error.inj he
      exact ⟨rfl, rfl⟩
    | none =>
      have hlengths := @meets_checkLengths before s records
      rw [hmisfit] at hlengths
      refine meets_bind_known hlengths (fun _ _ => ?_) fun e he => by cases he
      rw [collectionPath_of_not_misleads hname, Effect.ofExcept_ok_bind]
      exact meets_acknowledged_bind (meets_acknowledged (read?_put hname htrees)
        (exists_onShelf fun _ _ => ⟨_, _, acknowledges_reporting, rfl⟩)
        fun r after h => (onShelf_of_get? hshelf).mp h) fun _ => rfl
  · rw [hnone]
    exact ⟨rfl, rfl⟩

/-- The tree is the point of the record, which can be put into a document. -/
def KeptAs (r : Record) (kept : Source) : Prop := r.Writable ∧ (pointJson r).source? = some kept

/-- Points are shown somehow. -/
theorem exists_shown {records : List Record} {kept : List Source} (h : List.Forall₂ KeptAs records kept)
    (withVectors : Bool) :
    ∃ documents shown, Json.itemSources? documents = some shown ∧
      List.Forall₂ (Shows withVectors) kept shown := by
  induction h with
  | nil => exact ⟨[], [], rfl, .nil⟩
  | @cons r kept records rest hkept _ ih =>
    obtain ⟨documents, shown, hdocuments, hshown⟩ := ih
    obtain ⟨document, tree, hdocument, htree⟩ : ∃ document tree, Json.source? document = some tree ∧
        Shows withVectors kept tree := by
      obtain ⟨trees, hvector, -⟩ := exists_vectorSource hkept.1.finite
      obtain rfl := Option.some.inj (hkept.2.symm.trans (pointJson_source? hvector))
      obtain ⟨-, hpayload, hvectors⟩ := holds_pointSource r (.array trees)
      cases withVectors with
      | true => exact ⟨pointJson r, _, pointJson_source? hvector, ⟨_, hpayload, hpayload⟩, ⟨_, hvectors, hvectors⟩⟩
      | false =>
        exact ⟨.ofFields [("payload", payloadJson r)], _, ofFields_source? "payload" (payloadJson_source? r),
          ⟨_, hpayload, holds_singleton _ _⟩, .inl (Source.lacks_named.mpr (by simp))⟩
    refine ⟨document :: documents, tree :: shown, ?_, .cons htree hshown⟩
    rw [Json.itemSources?, hdocument, hdocuments]

/-- The points that are shown are read as the records that were put. -/
theorem exists_points {records : List Record} {kept shown : List Source} {withVectors : Bool}
    (hkept : List.Forall₂ KeptAs records kept) (hshown : List.Forall₂ (Shows withVectors) kept shown) (depth : ℕ)
    (hdepth : 3 ≤ depth) :
    ∃ points, shown.mapM (pointDecoder depth) = some points ∧
      points.filterMap (·.record?) = records.map fun r => r.filed.shown withVectors := by
  induction hkept generalizing shown with
  | nil =>
    cases hshown
    exact ⟨[], rfl, rfl⟩
  | cons hfirst _ ih =>
    obtain ⟨tree, rest, htree, hrest, rfl⟩ := List.forall₂_cons_left_iff.mp hshown
    obtain ⟨points, hpoints, hrecords⟩ := ih hrest
    obtain ⟨point, hpoint, hrecord⟩ := pointDecoder_of_shows hfirst.1 hfirst.2 htree hdepth
    refine ⟨point :: points, ?_, ?_⟩
    · rw [List.mapM_cons, hpoint, hpoints]
      rfl
    · rw [List.filterMap_cons, hrecord, hrecords]
      rfl

/-- **The records of the points that are kept** come back, in the order of the keys. -/
theorem meets_getAll (hname : ¬Misleads name) {keys : List String} {records : List Record} (withVectors : Bool)
    (hkept : ∀ shelf, before.get? name = some shelf →
      List.Forall₂ KeptAs records ((keys.map pointId).filterMap shelf.get?)) :
    Meets s.baseUrl (s.getAll name keys withVectors) before fun outcome after =>
      outcome = .ok (if before.contains name then records.map fun r => r.filed.shown withVectors else []) ∧
        after = before := by
  refine meets_holds_bind hname ?_
  cases hcontains : before.contains name with
  | false => exact meets_pure ⟨rfl, rfl⟩
  | true =>
    obtain ⟨shelf, hshelf⟩ := Option.isSome_iff_exists.mp hcontains
    have hrecords := hkept shelf hshelf
    have hsome : ∃ r after, (PointCommand.pick name (keys.map pointId) withVectors).Answered before r after := by
      refine exists_onShelf fun other hother => ?_
      obtain rfl := Option.some.inj (hshelf.symm.trans hother)
      obtain ⟨documents, shown, hdocuments, hshown⟩ := exists_shown hrecords withVectors
      exact ⟨_, before, rfl, shown, reports_reporting (array_source? hdocuments), hshown⟩
    rw [collectionPath_of_not_misleads hname, Effect.ofExcept_ok_bind]
    refine meets_bind (fun outcome after => ∃ points : List Point, outcome = .ok points ∧
      points.filterMap (·.record?) = (records.map fun r => r.filed.shown withVectors) ∧ after = before)
      (meets_send (read?_pick hname _ withVectors) hsome ?_) ?_ ?_
    · intro r after hanswered
      obtain ⟨rfl, shown, hreports, hshown⟩ := (onShelf_of_get? hshelf).mp hanswered
      obtain ⟨points, hpoints, hfound⟩ := exists_points hrecords hshown (Source.depthLimit - 2) (by decide)
      exact ⟨_, points, hreports, hpoints, points, rfl, hfound, rfl⟩
    · rintro _ _ ⟨points, hsame, hfound, rfl⟩
      obtain rfl := Except.ok.inj hsame
      exact meets_pure ⟨congrArg Except.ok hfound, rfl⟩
    · rintro e middle ⟨points, hfail, -⟩
      cases hfail

/-- **Points are taken away** from a collection that is there. -/
theorem meets_removeAll (hname : ¬Misleads name) (keys : List String) :
    Meets s.baseUrl (s.removeAll name keys) before fun outcome after => outcome = .ok () ∧
      after = match before.get? name with
        | none => before
        | some shelf => before.insert name ((keys.map pointId).foldl (·.erase ·) shelf) := by
  refine meets_holds_bind hname ?_
  cases hshelf : before.get? name with
  | none =>
    rw [Dictionary.contains_of_get?_eq_none hshelf]
    exact meets_pure ⟨rfl, rfl⟩
  | some shelf =>
    rw [Dictionary.contains_of_get? hshelf, collectionPath_of_not_misleads hname]
    exact meets_acknowledged_bind (meets_acknowledged (read?_discard hname (keys.map pointId))
      (exists_onShelf fun _ _ => ⟨_, _, acknowledges_reporting, rfl⟩)
      fun r after h => (onShelf_of_get? hshelf).mp h) fun _ => rfl

end RemoteStore

end Memory

end Orchestration
