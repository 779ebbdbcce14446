import Orchestration.Proofs.CollectionAddresses
import Orchestration.Proofs.PointDocuments

/-!
# A server that keeps points

What is assumed of a vector server: it keeps points by collection and id, each as the document that was last put
there, answers 404 about collections that it does not have, and shows points in the order in which they are asked for.
What it says beyond that, and in which words, is left open.

* `Shelves`, `PointCommand` — what the server keeps, and what a request tells it to do.
* `PointCommand.Answered` — the answers that it may give, and what it keeps then.
* `Served` — the requests of a run are answered so, one after the other.
* `Meets` — against such a server, a program always comes to an end that is as asked for; with one rule for each way
  to build a program.
* `RemoteStore.meets_send` — what a client makes of the answer to a command.
-/

namespace Orchestration

open Memory Number Http

/-- An outcome that is there already is gone on from. -/
theorem Effect.ofExcept_ok_bind {ε α β : Type} (value : α) (f : α → Effect ε β) :
    (Effect.ofExcept (.ok value) >>= f) = f value := rfl

namespace Memory

/-! ### What is kept and told -/

/-- Points by collection and id, each as the document that was last put there. -/
abbrev Shelves := Dictionary (Dictionary Source)

/-- What a vector server can be told. -/
inductive PointCommand where
  /-- to name all collections -/
  | list
  /-- to say whether a collection is there -/
  | probe (name : String)
  /-- to make a collection -/
  | create (name : String)
  /-- to take a collection away -/
  | drop (name : String)
  /-- to keep points, each under its id -/
  | put (name : String) (points : List Source)
  /-- to show the points under those of the ids that have one -/
  | pick (name : String) (ids : List String) (withVectors : Bool)
  /-- to take the points under the ids away -/
  | discard (name : String) (ids : List String)

namespace PointCommand

/-- Reads points to keep. -/
def putDecoder : Decoder (List Source) := .record ["points"] fun f =>
  f.required "points" (.list fun _ tree => some tree)

/-- Reads ids of points to take away. -/
def discardDecoder : Decoder (List String) := .record ["points"] fun f => f.required "points" (.list .string)

/-- Reads ids of points to show, and whether with their vectors; their payloads have to be asked for. -/
def pickDecoder : Decoder (List String × Bool) := .record ["ids", "with_payload", "with_vector"] fun f => do
  let ids ← f.required "ids" (.list .string)
  let withPayloads ← f.required "with_payload" .bool
  let withVectors ← f.required "with_vector" .bool
  if withPayloads then return (ids, withVectors) else none

/-- What a request tells the server, by its verb, the parts of its path and what is sent along. -/
def read? (method : String) (parts : List String) (body : Option Source) : Option PointCommand :=
  match method, parts with
  | "GET", ["", "collections"] => some .list
  | "GET", ["", "collections", name] => some (.probe name)
  | "PUT", ["", "collections", name] => some (.create name)
  | "DELETE", ["", "collections", name] => some (.drop name)
  | "PUT", ["", "collections", name, "points"] => (body.bind putDecoder.run).map (.put name)
  | "POST", ["", "collections", name, "points"] =>
    (body.bind pickDecoder.run).map fun asked => .pick name asked.1 asked.2
  | "POST", ["", "collections", name, "points", "delete"] => (body.bind discardDecoder.run).map (.discard name)
  | _, _ => none

end PointCommand

/-! ### What is answered -/

/-- A response reports a result: the request was carried out, and the result stands in an object, whatever else is
said there. -/
def Reports (r : Response) (result : Source) : Prop :=
  r.isSuccess = true ∧ ∃ tree, Source.read? r.body = some tree ∧ tree.Holds "result" result

/-- A response acknowledges a command: it reports some document. -/
def Acknowledges (r : Response) : Prop :=
  ∃ result, Reports r result ∧ (result.toJson? (Source.depthLimit - 1)).isSome = true

/-- A point on a shelf, under its id. -/
def shelve (shelf : Dictionary Source) (point : Source) : Dictionary Source :=
  match (Decoder.record ["id"] fun f => f.required "id" .string).run point with
  | some id => shelf.insert id point
  | none => shelf

/-- A collection that is not there is answered with 404, and nothing changes; of one that is there, something is
found. -/
def OnShelf (before : Shelves) (name : String) (r : Response) (after : Shelves) (found : Dictionary Source → Prop) :
    Prop :=
  match before.get? name with
  | none => r.status = 404 ∧ after = before
  | some shelf => found shelf

/-- The answers that the server may give to a command, and what it keeps after each. -/
def PointCommand.Answered (before : Shelves) (r : Response) (after : Shelves) : PointCommand → Prop
  | .list => after = before ∧ ∃ result items names, Reports r result ∧ result.Holds "collections" (.array items) ∧
      List.Forall₂ (fun (name : String) item => item.Holds "name" (.string name)) names items ∧
      names.Perm before.names
  | .probe name => OnShelf before name r after fun _ => r.isSuccess = true ∧ after = before
  | .create name =>
    if before.contains name then r.isSuccess = false ∧ after = before
    else Acknowledges r ∧ after = before.insert name ∅
  | .drop name => OnShelf before name r after fun _ => Acknowledges r ∧ after = before.erase name
  | .put name points => OnShelf before name r after fun shelf =>
      Acknowledges r ∧ after = before.insert name (points.foldl shelve shelf)
  | .pick name ids withVectors => OnShelf before name r after fun shelf =>
      after = before ∧ ∃ shown, Reports r (.array shown) ∧
        List.Forall₂ (RemoteStore.Shows withVectors) (ids.filterMap shelf.get?) shown
  | .discard name ids => OnShelf before name r after fun shelf =>
      Acknowledges r ∧ after = before.insert name (ids.foldl (·.erase ·) shelf)

/-! ### Runs -/

/-- The parts of a path. -/
def pathParts (path : String) : List String := (Url.partsOf path.toList).map .ofList

/-- A request to the server at an address is answered, and as its command may be; nothing else changes what is
kept. -/
def ServesExchange (base : String) (before : Shelves) (x : Exchange Outside) (after : Shelves) : Prop :=
  match x with
  | ⟨.exchange request, answer⟩ => ∃ response, answer = .ok response ∧
      ∀ path command, request.url = base ++ path →
        PointCommand.read? request.method (pathParts path) (request.body.bind Source.read?) = some command →
          command.Answered before response after
  | _ => after = before

/-- The requests of a run are answered by the server at an address, from what it keeps before to what it keeps
after. -/
def Served (base : String) : Shelves → List (Exchange Outside) → Shelves → Prop
  | before, [], after => after = before
  | before, x :: log, after => ∃ middle, ServesExchange base before x middle ∧ Served base middle log after

variable {base : String} {before after : Shelves}

theorem served_append {first later : List (Exchange Outside)} :
    Served base before (first ++ later) after ↔
      ∃ middle, Served base before first middle ∧ Served base middle later after := by
  induction first generalizing before with
  | nil =>
    constructor
    · exact fun h => ⟨before, rfl, h⟩
    · rintro ⟨middle, rfl, h⟩
      exact h
  | cons x first ih =>
    constructor
    · rintro ⟨next, hx, hrest⟩
      obtain ⟨middle, hfirst, hlater⟩ := ih.mp hrest
      exact ⟨middle, ⟨next, hx, hfirst⟩, hlater⟩
    · rintro ⟨middle, ⟨next, hx, hfirst⟩, hlater⟩
      exact ⟨next, hx, ih.mpr ⟨middle, hfirst, hlater⟩⟩

/-! ### Programs against the server -/

/-- Against such a server the program comes to an end, and to no end but those that are asked for. -/
structure Meets {ε α : Type} (base : String) (t : Effect ε α) (before : Shelves)
    (post : Except ε α → Shelves → Prop) : Prop where
  /-- there is a run -/
  exists_run : ∃ log outcome after, Ends t log outcome ∧ Served base before log after
  /-- every run ends as asked for -/
  ends : ∀ log outcome after, Ends t log outcome → Served base before log after → post outcome after

section Meets

variable {ε α β : Type} {t : Effect ε α} {f : α → Effect ε β} {mid : Except ε α → Shelves → Prop}
  {post : Except ε β → Shelves → Prop}

theorem meets_pure {value : β} (h : post (.ok value) before) : Meets base (pure value : Effect ε β) before post where
  exists_run := ⟨[], .ok value, before, ends_pure.mpr ⟨rfl, rfl⟩, rfl⟩
  ends log outcome after hends hserved := by
    obtain ⟨rfl, rfl⟩ := ends_pure.mp hends
    obtain rfl := hserved
    exact h

theorem meets_throw {e : ε} (h : post (.error e) before) : Meets base (throw e : Effect ε β) before post where
  exists_run := ⟨[], .error e, before, ends_throw.mpr ⟨rfl, rfl⟩, rfl⟩
  ends log outcome after hends hserved := by
    obtain ⟨rfl, rfl⟩ := ends_throw.mp hends
    obtain rfl := hserved
    exact h

/-- A sequence goes on from what its first part comes to. -/
theorem meets_bind (mid : Except ε α → Shelves → Prop) (ht : Meets base t before mid)
    (hok : ∀ value middle, mid (.ok value) middle → Meets base (f value) middle post)
    (herror : ∀ e middle, mid (.error e) middle → post (.error e) middle) : Meets base (t >>= f) before post where
  exists_run := by
    obtain ⟨first, outcome, middle, hfirst, hserved⟩ := ht.exists_run
    have hmid := ht.ends first outcome middle hfirst hserved
    cases outcome with
    | error e => exact ⟨first, .error e, middle, ends_bind.mpr (.inl ⟨e, hfirst, rfl⟩), hserved⟩
    | ok value =>
      obtain ⟨later, outcome, after, hlater, hserved'⟩ := (hok value middle hmid).exists_run
      exact ⟨first ++ later, outcome, after, ends_bind.mpr (.inr ⟨first, value, later, hfirst, hlater, rfl⟩),
        served_append.mpr ⟨middle, hserved, hserved'⟩⟩
  ends log outcome after hends hserved := by
    rcases ends_bind.mp hends with ⟨e, hfirst, rfl⟩ | ⟨first, value, later, hfirst, hlater, rfl⟩
    · exact herror e after (ht.ends log _ after hfirst hserved)
    · obtain ⟨middle, hserved, hserved'⟩ := served_append.mp hserved
      exact (hok value middle (ht.ends first _ middle hfirst hserved)).ends later outcome after hlater hserved'

/-- A sequence goes on from the one outcome that its first part comes to. -/
theorem meets_bind_known {given : Except ε α} {middle : Shelves}
    (ht : Meets base t before fun outcome after => outcome = given ∧ after = middle)
    (hok : ∀ value, given = .ok value → Meets base (f value) middle post)
    (herror : ∀ e, given = .error e → post (.error e) middle) : Meets base (t >>= f) before post := by
  refine meets_bind _ ht ?_ ?_
  · rintro value _ ⟨hsame, rfl⟩
    exact hok value hsame.symm
  · rintro e _ ⟨hsame, rfl⟩
    exact herror e hsame.symm

theorem Meets.mono {strong : Except ε β → Shelves → Prop} {t : Effect ε β} (h : Meets base t before strong)
    (himp : ∀ outcome after, strong outcome after → post outcome after) : Meets base t before post :=
  ⟨h.exists_run, fun log outcome after hends hserved => himp _ _ (h.ends log outcome after hends hserved)⟩

/-- An attempt comes to the outcome of the program, whether a failure or not. -/
theorem meets_attempt {ε' : Type} (ht : Meets base t before mid) :
    Meets base (t.attempt : Effect ε' (Except ε α)) before fun outcome after =>
      ∃ inner, outcome = .ok inner ∧ mid inner after where
  exists_run := by
    obtain ⟨log, inner, after, hends, hserved⟩ := ht.exists_run
    exact ⟨log, .ok inner, after, ends_lift.mpr ⟨inner, hends, rfl⟩, hserved⟩
  ends log outcome after hends hserved := by
    obtain ⟨inner, hinner, rfl⟩ := ends_lift.mp hends
    exact ⟨inner, rfl, ht.ends log inner after hinner hserved⟩

end Meets

/-! ### Requests -/

namespace RemoteStore

variable {s : RemoteStore} {method path : String} {body : Option Json} {command : PointCommand}

theorem ends_exchange {log : List (Exchange Outside)} {outcome : Except MemoryError Response} :
    Ends (s.exchange method path body) log outcome ↔ ∃ answer : Except String Response,
      log = [⟨.exchange (s.requestTo method path body), answer⟩] ∧ outcome = answer.mapError .http := by
  rw [exchange, Effect.ends_ask_bind]
  constructor
  · rintro ⟨answer, rest, hrest, rfl⟩
    refine ⟨answer, ?_⟩
    cases answer with
    | error detail =>
      obtain ⟨rfl, rfl⟩ := ends_throw.mp hrest
      exact ⟨rfl, rfl⟩
    | ok response =>
      obtain ⟨rfl, rfl⟩ := ends_pure.mp hrest
      exact ⟨rfl, rfl⟩
  · rintro ⟨answer, rfl, rfl⟩
    refine ⟨answer, [], ?_, rfl⟩
    cases answer with
    | error detail => exact ends_throw.mpr ⟨rfl, rfl⟩
    | ok response => exact ends_pure.mpr ⟨rfl, rfl⟩

/-- **A request** that tells the server something is answered as that may be. -/
theorem meets_exchange {post : Except MemoryError Response → Shelves → Prop}
    (hread : PointCommand.read? method (pathParts path) ((body.map (·.compact)).bind Source.read?) = some command)
    (hsome : ∃ response after, command.Answered before response after)
    (hpost : ∀ response after, command.Answered before response after → post (.ok response) after) :
    Meets s.baseUrl (s.exchange method path body) before post where
  exists_run := by
    obtain ⟨response, after, hanswered⟩ := hsome
    refine ⟨_, _, after, ends_exchange.mpr ⟨.ok response, rfl, rfl⟩, after, ⟨response, rfl, ?_⟩, rfl⟩
    intro other command' hurl hread'
    obtain rfl : path = other := by
      have hlist := congrArg String.toList hurl
      rw [requestTo, String.toList_append, String.toList_append] at hlist
      exact String.toList_inj.mp (List.append_cancel_left hlist)
    obtain rfl := Option.some.inj (hread.symm.trans hread')
    exact hanswered
  ends log outcome after hends hserved := by
    obtain ⟨answer, rfl, rfl⟩ := ends_exchange.mp hends
    obtain ⟨middle, ⟨response, rfl, hallowed⟩, rfl⟩ := hserved
    exact hpost response after (hallowed path command rfl hread)

/-- The result that a response reports is decoded. -/
theorem read?_of_reports {α : Type} {decode : Decoder α} {response : Response} {result : Source} {value : α}
    (h : Reports response result) (hvalue : decode (Source.depthLimit - 1) result = some value) :
    (Decoder.record ["result"] fun f => f.required "result" decode).read? response.body = some value := by
  obtain ⟨-, tree, hread, hholds⟩ := h
  rw [Decoder.read?, hread, Option.bind_some, Decoder.run, Decoder.record_of_holds hholds decode (by decide), hvalue]

/-- **A command** whose answers report what can be decoded is answered with what is decoded. -/
theorem meets_send {α : Type} {decode : Decoder α} {post : Except MemoryError α → Shelves → Prop}
    (hread : PointCommand.read? method (pathParts path) ((body.map (·.compact)).bind Source.read?) = some command)
    (hsome : ∃ response after, command.Answered before response after)
    (hpost : ∀ response after, command.Answered before response after → ∃ result value, Reports response result ∧
      decode (Source.depthLimit - 1) result = some value ∧ post (.ok value) after) :
    Meets s.baseUrl (s.send method path body decode) before post := by
  rw [send]
  refine meets_bind (fun outcome after => ∃ response, outcome = .ok response ∧
    command.Answered before response after) (meets_exchange hread hsome fun response after h => ⟨response, rfl, h⟩)
    ?_ ?_
  · rintro response middle ⟨_, hsame, hanswered⟩
    obtain rfl := Except.ok.inj hsame
    obtain ⟨result, value, hreports, hvalue, hmet⟩ := hpost response middle hanswered
    rw [if_pos hreports.1, read?_of_reports hreports hvalue]
    exact meets_pure hmet
  · rintro e middle ⟨response, hfail, -⟩
    cases hfail

/-! ### What requests say -/

section Reading

variable {name : String}

theorem pathParts_address (hname : ¬Misleads name) {suffix : String} (call : Call) (hsuffix : suffix ∈ call.suffixes) :
    pathParts (address name suffix) =
      "" :: "collections" :: name :: (Url.partsOf suffix.toList).tail.map .ofList := by
  rw [pathParts, partsOf_address hname hsuffix]
  simp

theorem pathParts_collection (hname : ¬Misleads name) : pathParts (address name "") = ["", "collections", name] :=
  pathParts_address hname (.holds name) (List.mem_singleton.mpr rfl)

theorem pathParts_points (hname : ¬Misleads name) :
    pathParts (address name "/points?wait=true") = ["", "collections", name, "points"] ∧
      pathParts (address name "/points") = ["", "collections", name, "points"] ∧
      pathParts (address name "/points/delete?wait=true") = ["", "collections", name, "points", "delete"] := by
  refine ⟨?_, ?_, ?_⟩
  · rw [pathParts_address hname (.upsertBatch name []) (.tail _ (.head _))]
    rfl
  · rw [pathParts_address hname (.getBatch name [] false) (.tail _ (.head _))]
    rfl
  · rw [pathParts_address hname (.removeBatch name []) (.tail _ (.head _))]
    rfl

/-! ### Bodies -/

/-- Documents in a row are read as themselves. -/
theorem list_trees {depth : ℕ} (hdepth : 2 ≤ depth) (trees : List Source) :
    Decoder.list (fun _ tree => some tree) depth (.array trees) = some trees := by
  have henter : Source.enter? depth = some (depth - 1) := if_pos hdepth
  have hmap : (trees.map id).mapM (fun tree => some tree) = some trees :=
    Decoder.mapM_map_eq_some id (fun _ => rfl) trees
  rw [List.map_id] at hmap
  rw [Decoder.list, henter]
  exact hmap

/-- Texts in a row, as they are read. -/
def textTrees (texts : List String) : Source := .array (texts.map fun text : String => .string text)

theorem list_strings {depth : ℕ} (hdepth : 2 ≤ depth) (texts : List String) :
    Decoder.list Decoder.string depth (textTrees texts) = some texts := by
  have henter : Source.enter? depth = some (depth - 1) := if_pos hdepth
  rw [textTrees, Decoder.list, henter]
  exact Decoder.mapM_map_eq_some (fun text : String => Source.string text) (fun _ => rfl) texts

theorem ofStrings_source? (texts : List String) :
    (Json.ofStrings texts).source? = some (textTrees texts) := by
  have hitems : Json.itemSources? (texts.map .string) = some (texts.map fun text : String => .string text) := by
    induction texts with
    | nil => rfl
    | cons text texts ih => rw [List.map_cons, Json.itemSources?, ih, List.map_cons]; rfl
  rw [Json.ofStrings, Json.source?, hitems]
  rfl

theorem array_source? {items : List Json} {trees : List Source} (h : Json.itemSources? items = some trees) :
    (Json.array items).source? = some (.array trees) := congrArg (Option.map Source.array) h

/-- A document of one field. -/
theorem ofFields_source? (field : String) {value : Json} {tree : Source} (h : value.source? = some tree) :
    (Json.ofFields [(field, value)]).source? = some (.named [(field, tree)]) := by
  have hfields : Json.ofFields [(field, value)] = .object [(field, value)] := rfl
  rw [hfields, Json.source?, Json.fieldSources?, h]
  rfl

theorem holds_singleton (field : String) (tree : Source) : (Source.named [(field, tree)]).Holds field tree :=
  Source.holds_named.mpr (by simp)

/-- The body with points to keep. -/
theorem read?_put (hname : ¬Misleads name) {points : List Json} {trees : List Source}
    (h : Json.itemSources? points = some trees) :
    PointCommand.read? "PUT" (pathParts (address name "/points?wait=true"))
      ((some (Json.ofFields [("points", .array points)])).map (·.compact) |>.bind Source.read?) =
        some (.put name trees) := by
  have hbody := Source.read?_compact (ofFields_source? "points" (array_source? h))
  have hput : PointCommand.putDecoder.run (.named [("points", .array trees)]) = some trees := by
    rw [Decoder.run, PointCommand.putDecoder, Decoder.record_of_holds (holds_singleton _ _) _ (by decide),
      list_trees (by decide)]
  rw [(pathParts_points hname).1, Option.map_some, Option.bind_some, hbody]
  exact congrArg (Option.map (PointCommand.put name)) hput

/-- The body with ids of points to take away. -/
theorem read?_discard (hname : ¬Misleads name) (ids : List String) :
    PointCommand.read? "POST" (pathParts (address name "/points/delete?wait=true"))
      ((some (Json.ofFields [("points", .ofStrings ids)])).map (·.compact) |>.bind Source.read?) =
        some (.discard name ids) := by
  have hbody := Source.read?_compact (ofFields_source? "points" (ofStrings_source? ids))
  have hdiscard : PointCommand.discardDecoder.run (.named [("points", textTrees ids)]) = some ids := by
    rw [Decoder.run, PointCommand.discardDecoder, Decoder.record_of_holds (holds_singleton _ _) _ (by decide),
      list_strings (by decide)]
  rw [(pathParts_points hname).2.2, Option.map_some, Option.bind_some, hbody]
  exact congrArg (Option.map (PointCommand.discard name)) hdiscard

/-- The body with ids of points to show. -/
theorem read?_pick (hname : ¬Misleads name) (ids : List String) (withVectors : Bool) :
    PointCommand.read? "POST" (pathParts (address name "/points"))
      ((some (Json.ofFields [("ids", .ofStrings ids), ("with_payload", .bool true),
        ("with_vector", .bool withVectors)])).map (·.compact) |>.bind Source.read?) =
        some (.pick name ids withVectors) := by
  obtain ⟨tree, htree⟩ : ∃ tree, tree = textTrees ids := ⟨_, rfl⟩
  have hfields : Json.ofFields [("ids", .ofStrings ids), ("with_payload", .bool true),
      ("with_vector", .bool withVectors)] =
      .object [("ids", .ofStrings ids), ("with_payload", .bool true), ("with_vector", .bool withVectors)] := by
    simp only [Json.ofFields, List.foldl_cons, insertEntry, String.reduceLT, ↓reduceIte, String.reduceEq,
      List.foldl_nil]
  obtain ⟨fields, hnamed⟩ : ∃ fields : List (String × Source), fields = [("ids", tree), ("with_payload", .bool true),
      ("with_vector", .bool withVectors)] := ⟨_, rfl⟩
  have hsource : (Json.ofFields [("ids", .ofStrings ids), ("with_payload", .bool true),
      ("with_vector", .bool withVectors)]).source? = some (.named fields) := by
    rw [hfields, Json.source?, Json.fieldSources?, ofStrings_source?, ← htree, hnamed]
    rfl
  have hnames : fields.map Prod.fst = ["ids", "with_payload", "with_vector"] := by rw [hnamed]; rfl
  have hids : (⟨Source.depthLimit - 1, false, fields⟩ : Decoder.Fields).required "ids" (.list .string) = some ids := by
    have hlist : Decoder.list Decoder.string (Source.depthLimit - 1) tree = some ids :=
      htree ▸ list_strings (by decide) ids
    rw [hnamed]
    exact hlist
  have hpick : PointCommand.pickDecoder.run (.named fields) = some (ids, withVectors) := by
    rw [Decoder.run, PointCommand.pickDecoder, Source.named,
      Decoder.record_of_fields (fun f hf => hnames ▸ List.mem_map_of_mem hf) (hnames ▸ by decide) _ (by decide), hids,
      hnamed]
    rfl
  rw [(pathParts_points hname).2.1, Option.map_some, Option.bind_some, Source.read?_compact hsource]
  exact congrArg (Option.map fun asked => PointCommand.pick name asked.1 asked.2) hpick

end Reading

end RemoteStore

end Memory

end Orchestration
