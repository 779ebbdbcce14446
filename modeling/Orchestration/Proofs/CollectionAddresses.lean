import Orchestration.Memory.Remote
import Orchestration.Proofs.SmallLetters
import Orchestration.Proofs.StoreRuns

/-!
# Addresses of collections

A store behind the network names a collection inside the address of each request. A name that would change what
the address says is refused before anything is sent, whatever the call; any other name is one whole part of every
path that is asked for, so different names have different paths.

* `RemoteStore.Misleads` — the names that are refused, spelled out.
* `RemoteStore.answer_of_misleads` — a call with such a name fails at once.
* `RemoteStore.asks_answer` — where the requests of every other call go.
* `RemoteStore.partsOf_address` — the parts of their paths, as a reader of addresses cuts them.
* `RemoteStore.address_inj` — a path leads to one name.
* `RemoteStore.answer_keepsToName` — all of it, for every call, name and run.
-/

namespace Orchestration

open Memory Number Text Http

/-! ### What programs ask for -/

section Stays

variable {S : Signature} {ε α : Type} {t : ExceptT ε (Program S) α} {asked : S.Request → Prop}

/-- The program asks only for what is `asked`, however it ends. -/
abbrev Asks (t : ExceptT ε (Program S) α) (asked : S.Request → Prop) : Prop := Stays t asked fun _ => True

theorem Asks.bind {β : Type} {f : α → ExceptT ε (Program S) β} (ht : Asks t asked)
    (hf : ∀ value, Asks (f value) asked) : Asks (t >>= f) asked :=
  stays_bind (fun log outcome hends => ⟨(ht log outcome hends).1, fun _ _ => trivial⟩) hf

theorem asks_forM {β : Type} {f : β → ExceptT ε (Program S) PUnit} {xs : List β}
    (h : ∀ x ∈ xs, Asks (f x) asked) : Asks (xs.forM f) asked := by
  induction xs with
  | nil => exact stays_pure trivial
  | cons x xs ih =>
    exact (h x List.mem_cons_self).bind fun _ => ih fun y hy => h y (List.mem_cons_of_mem x hy)

end Stays

namespace Effect

variable {ε α : Type} {asked : OutsideRequest → Prop}

theorem asks_ask {r : OutsideRequest} (h : asked r) : Asks (Effect.ask r : Effect ε r.Answer) asked := by
  intro log outcome hends
  obtain ⟨answer, rfl, rfl⟩ := ends_ask.mp hends
  exact ⟨fun x hx => by rwa [List.mem_singleton.mp hx], trivial⟩

end Effect

/-! ### Parts of a path -/

namespace Text

variable {mark : Char} {part rest : List Char}

theorem splitOn_of_not_mem (h : mark ∉ part) : splitOn mark part = [part] := by
  induction part with
  | nil => rfl
  | cons c part ih =>
    obtain ⟨hc, hpart⟩ := not_or.mp (mt List.mem_cons.mpr h)
    rw [splitOn, if_neg fun he => hc he.symm, ih hpart]

theorem splitOn_append_cons (h : mark ∉ part) : splitOn mark (part ++ mark :: rest) = part :: splitOn mark rest := by
  induction part with
  | nil => simp [splitOn]
  | cons c part ih =>
    obtain ⟨hc, hpart⟩ := not_or.mp (mt List.mem_cons.mpr h)
    rw [List.cons_append, splitOn, if_neg fun he => hc he.symm, ih hpart]

end Text

namespace Http.Url

/-- The parts of a path, without what follows a question mark or a number sign. -/
def partsOf (path : List Char) : List (List Char) := splitOn '/' (cutAt '?' (cutAt '#' path).1).1

variable {mark : Char} {part rest : List Char}

/-- A cut comes no earlier than the mark. -/
theorem cutAt_append (h : mark ∉ part) : (cutAt mark (part ++ rest)).1 = part ++ (cutAt mark rest).1 := by
  have hkept : ∀ c ∈ part, decide (c ≠ mark) = true := fun c hc =>
    decide_eq_true fun he => h (he ▸ hc)
  rw [cutAt, List.dropWhile_append_of_pos hkept, List.takeWhile_append_of_pos hkept, cutAt]
  cases rest.dropWhile (· ≠ mark) <;> rfl

theorem partsOf_append_slash (h : ∀ c ∈ part, c ≠ '/' ∧ c ≠ '?' ∧ c ≠ '#') :
    partsOf (part ++ '/' :: rest) = part :: partsOf rest := by
  have hnumber : '#' ∉ part := fun hc => (h _ hc).2.2 rfl
  have hquestion : '?' ∉ part := fun hc => (h _ hc).2.1 rfl
  have hslash : '/' ∉ part := fun hc => (h _ hc).1 rfl
  have hnumber' : '#' ∉ ['/'] := by decide
  have hquestion' : '?' ∉ ['/'] := by decide
  rw [partsOf, cutAt_append hnumber, ← List.singleton_append, cutAt_append hnumber', cutAt_append hquestion,
    cutAt_append hquestion', List.singleton_append, splitOn_append_cons hslash, partsOf]

theorem partsOf_of_plain (h : ∀ c ∈ part, c ≠ '/' ∧ c ≠ '?' ∧ c ≠ '#') : partsOf part = [part] := by
  have hcut : ∀ mark, mark ∉ part → (cutAt mark part).1 = part := by
    intro mark hmark
    have h : (cutAt mark (part ++ [])).1 = part ++ [] := cutAt_append hmark
    rwa [List.append_nil] at h
  rw [partsOf, hcut '#' fun hc => (h _ hc).2.2 rfl, hcut '?' fun hc => (h _ hc).2.1 rfl,
    splitOn_of_not_mem fun hc => (h _ hc).1 rfl]

theorem eq_of_map_toLower {marks : List Char} (hmarks : ∀ mark ∈ marks, mark = '.')
    (h : part.map Char.toLower = marks) : part = marks := by
  subst h
  have hfixed : ∀ c ∈ part, c.toLower = c := by
    intro c hc
    have hdot := hmarks _ (List.mem_map_of_mem hc)
    rw [hdot, (toLower_eq_iff_of_lt (by decide)).mp hdot]
  rw [List.map_congr_left hfixed, List.map_id']

/-- A part without a percent sign stands for a directory only if it is one or two dots. -/
theorem not_isHere_isAbove (hpercent : '%' ∉ part) (hone : part ≠ ['.']) (htwo : part ≠ ['.', '.']) :
    isHere part = false ∧ isAbove part = false := by
  have hsmall : '%' ∉ part.map Char.toLower := by
    intro hmem
    obtain ⟨c, hc, hlower⟩ := List.mem_map.mp hmem
    exact hpercent ((toLower_eq_iff_of_lt (by decide)).mp hlower ▸ hc)
  have hone' : part.map Char.toLower ≠ ['.'] := fun h => hone (eq_of_map_toLower (by simp) h)
  have htwo' : part.map Char.toLower ≠ ['.', '.'] := fun h => htwo (eq_of_map_toLower (by simp) h)
  have hother : ∀ text : String, '%' ∈ text.toList → String.ofList (part.map Char.toLower) ≠ text := by
    rintro text htext rfl
    exact hsmall (by simpa using htext)
  constructor
  · have hdot : String.ofList (part.map Char.toLower) ≠ "." := fun h =>
      hone' (by simpa using congrArg String.toList h)
    simp [isHere, hdot, hother "%2e" (by decide)]
  · have hdots : String.ofList (part.map Char.toLower) ≠ ".." := fun h =>
      htwo' (by simpa using congrArg String.toList h)
    simp [isAbove, hdots, hother ".%2e" (by decide), hother "%2e." (by decide), hother "%2e%2e" (by decide)]

end Http.Url

/-! ### Calls about collections -/

namespace Memory

/-- The collection that a call is about; only the list of all collections is about none. -/
def Call.collection? : Call → Option String
  | .collections => none
  | .create collection | .delete collection | .holds collection | .upsert collection _
  | .upsertBatch collection _ | .get collection .. | .getBatch collection .. | .remove collection _
  | .removeBatch collection _ | .nearest collection .. => some collection

/-- What follows the name in the paths that a call asks for. -/
def Call.suffixes : Call → List String
  | .collections => []
  | .create _ | .delete _ | .holds _ => [""]
  | .upsert .. | .upsertBatch .. => ["", "/points?wait=true"]
  | .get .. | .getBatch .. => ["", "/points"]
  | .remove .. | .removeBatch .. => ["", "/points/delete?wait=true"]
  | .nearest .. => ["", "/points/search"]

namespace RemoteStore

/-- A name that would change what an address says: it is blank, stands for a directory, or has a character that
means something in addresses, a blank or a control. -/
def Misleads (name : String) : Prop :=
  (∀ c ∈ name.toList, isBlank c) ∨ name = "." ∨ name = ".." ∨
    ∃ c ∈ name.toList, c ∈ ['/', '\\', '?', '#', '%'] ∨ isBlank c ∨ isControl c

/-- The path to a collection, or to something of it. -/
def address (name suffix : String) : String := "/collections/" ++ name ++ suffix

variable {name : String}

theorem isUnsafe_iff {c : Char} :
    isUnsafe c = true ↔ c ∈ ['/', '\\', '?', '#', '%'] ∨ isBlank c ∨ isControl c := by
  have hmarks : "/\\?#%".toList = ['/', '\\', '?', '#', '%'] := rfl
  rw [isUnsafe, hmarks, Bool.or_eq_true, Bool.or_eq_true, List.contains_iff_mem, or_assoc]

theorem isCollectionName_iff : isCollectionName name = true ↔ ¬Misleads name := by
  have hblank : isBlankText name = true ↔ ∀ c ∈ name.toList, isBlank c = true := List.all_eq_true
  have hunsafe : name.toList.any isUnsafe = true ↔
      ∃ c ∈ name.toList, c ∈ ['/', '\\', '?', '#', '%'] ∨ isBlank c ∨ isControl c := by
    simp only [List.any_eq_true, isUnsafe_iff]
  rw [isCollectionName, Misleads, ← hblank, ← hunsafe]
  simp [not_or, and_assoc]

theorem collectionPath_of_misleads (h : Misleads name) (rest : String) :
    collectionPath name rest = .error (.invalidCollectionName name) :=
  if_neg fun hname => isCollectionName_iff.mp hname h

theorem collectionPath_of_not_misleads (h : ¬Misleads name) (rest : String) :
    collectionPath name rest = .ok (address name rest) := by
  rw [collectionPath, if_pos (isCollectionName_iff.mpr h), address]
  rfl

variable {s : RemoteStore} {call : Call}

/-- **Refusal.** A call with a misleading name fails at once, with that name. -/
theorem answer_of_misleads (hcall : call.collection? = some name) (h : Misleads name) :
    s.answer call = throw (.invalidCollectionName name) := by
  have hholds : s.holds name = throw (.invalidCollectionName name) := by
    rw [holds, collectionPath_of_misleads h]
    rfl
  have hrequire : s.require name = throw (.invalidCollectionName name) := by
    rw [require, hholds]
    rfl
  cases call with
  | collections => cases hcall
  | create collection =>
    obtain rfl := Option.some.inj hcall
    rw [answer, create, collectionPath_of_misleads h]
    rfl
  | delete collection =>
    obtain rfl := Option.some.inj hcall
    rw [answer, delete, collectionPath_of_misleads h]
    rfl
  | holds collection =>
    obtain rfl := Option.some.inj hcall
    exact hholds
  | upsert collection _ | upsertBatch collection _ =>
    obtain rfl := Option.some.inj hcall
    rw [answer, upsertAll, hrequire]
    rfl
  | get collection _ _ | getBatch collection _ _ =>
    obtain rfl := Option.some.inj hcall
    rw [answer, getAll, hholds]
    rfl
  | remove collection _ | removeBatch collection _ =>
    obtain rfl := Option.some.inj hcall
    rw [answer, removeAll, hholds]
    rfl
  | nearest collection embedding limit least withEmbeddings =>
    obtain rfl := Option.some.inj hcall
    rw [answer, nearest, hrequire]
    rfl

/-! ### Where requests go -/

section Requests

variable {asked : OutsideRequest → Prop} {method path suffix : String} {body : Option Json}

/-- Requests to an address are among what is asked. -/
def Admits (s : RemoteStore) (asked : OutsideRequest → Prop) (path : String) : Prop :=
  ∀ method body, asked (.exchange (s.requestTo method path body))

theorem asks_exchange (h : s.Admits asked path) : Asks (s.exchange method path body) asked :=
  (Effect.asks_ask (h method body)).bind fun
    | .error _ => stays_throw trivial
    | .ok _ => stays_pure trivial

theorem asks_send {α : Type} {decode : Decoder α} (h : s.Admits asked path) :
    Asks (s.send method path body decode) asked :=
  (asks_exchange h).bind fun response => by
    split
    · split
      · exact stays_pure trivial
      · exact stays_throw trivial
    · exact stays_throw trivial

theorem asks_checkLength (v : Vector) : Asks (s.checkLength v) asked := by
  rw [checkLength]
  split
  · exact stays_throw trivial
  · exact stays_pure trivial

theorem asks_holds (hname : ¬Misleads name) (h : s.Admits asked (address name "")) :
    Asks (s.holds name) asked := by
  rw [holds, collectionPath_of_not_misleads hname]
  refine (asks_exchange h).bind fun response => ?_
  split
  · exact stays_pure trivial
  · split
    · exact stays_pure trivial
    · exact stays_throw trivial

theorem asks_require (hname : ¬Misleads name) (h : s.Admits asked (address name "")) :
    Asks (s.require name) asked :=
  (asks_holds hname h).bind fun there => by
    cases there with
    | true => exact stays_pure trivial
    | false => exact stays_throw trivial

variable (records : List Record) (keys : List String) (withVectors : Bool) (embedding : Vector) (limit : Nat)
  (least : Float)

theorem asks_create (hname : ¬Misleads name) (h : s.Admits asked (address name "")) :
    Asks (s.create name) asked := by
  rw [create, collectionPath_of_not_misleads hname]
  refine (asks_holds hname h).bind fun there => ?_
  cases there with
  | true => exact stays_pure trivial
  | false => exact (asks_send h).bind fun _ => stays_pure trivial

theorem asks_delete (hname : ¬Misleads name) (h : s.Admits asked (address name "")) :
    Asks (s.delete name) asked := by
  rw [delete, collectionPath_of_not_misleads hname]
  exact (asks_require hname h).bind fun _ => (asks_send h).bind fun _ => stays_pure trivial

theorem asks_upsertAll (hname : ¬Misleads name) (h : s.Admits asked (address name ""))
    (hpoints : s.Admits asked (address name "/points?wait=true")) :
    Asks (s.upsertAll name records) asked := by
  rw [upsertAll, collectionPath_of_not_misleads hname]
  refine (asks_require hname h).bind fun _ => ?_
  refine (asks_forM fun r _ => asks_checkLength r.embedding).bind fun _ => ?_
  exact (asks_send hpoints).bind fun _ => stays_pure trivial

theorem asks_getAll (hname : ¬Misleads name) (h : s.Admits asked (address name ""))
    (hpoints : s.Admits asked (address name "/points")) :
    Asks (s.getAll name keys withVectors) asked := by
  rw [getAll, collectionPath_of_not_misleads hname]
  refine (asks_holds hname h).bind fun there => ?_
  cases there with
  | false => exact stays_pure trivial
  | true => exact (asks_send hpoints).bind fun _ => stays_pure trivial

theorem asks_removeAll (hname : ¬Misleads name) (h : s.Admits asked (address name ""))
    (hpoints : s.Admits asked (address name "/points/delete?wait=true")) :
    Asks (s.removeAll name keys) asked := by
  rw [removeAll, collectionPath_of_not_misleads hname]
  refine (asks_holds hname h).bind fun there => ?_
  cases there with
  | false => exact stays_pure trivial
  | true => exact (asks_send hpoints).bind fun _ => stays_pure trivial

theorem asks_nearest (hname : ¬Misleads name) (h : s.Admits asked (address name ""))
    (hpoints : s.Admits asked (address name "/points/search")) :
    Asks (s.nearest name embedding limit least withVectors) asked := by
  rw [nearest, collectionPath_of_not_misleads hname]
  refine (asks_require hname h).bind fun _ => ?_
  split
  · exact stays_pure trivial
  · refine (asks_checkLength embedding).bind fun _ => ?_
    exact (asks_send hpoints).bind fun _ => stays_pure trivial

/-- **Where requests go.** A call with any other name asks only for paths of its own. -/
theorem asks_answer (hcall : call.collection? = some name) (hname : ¬Misleads name)
    (h : ∀ suffix ∈ call.suffixes, s.Admits asked (address name suffix)) : Asks (s.answer call) asked := by
  cases call with
  | collections => cases hcall
  | create collection =>
    obtain rfl := Option.some.inj hcall
    exact asks_create hname (h _ (.head _))
  | delete collection =>
    obtain rfl := Option.some.inj hcall
    exact asks_delete hname (h _ (.head _))
  | holds collection =>
    obtain rfl := Option.some.inj hcall
    exact asks_holds hname (h _ (.head _))
  | upsert collection record =>
    obtain rfl := Option.some.inj hcall
    exact (asks_upsertAll [record] hname (h _ (.head _)) (h _ (.tail _ (.head _)))).bind fun _ => stays_pure trivial
  | upsertBatch collection records =>
    obtain rfl := Option.some.inj hcall
    exact asks_upsertAll records hname (h _ (.head _)) (h _ (.tail _ (.head _)))
  | get collection key withEmbedding =>
    obtain rfl := Option.some.inj hcall
    exact (asks_getAll [key] withEmbedding hname (h _ (.head _)) (h _ (.tail _ (.head _)))).bind fun _ =>
      stays_pure trivial
  | getBatch collection keys withEmbeddings =>
    obtain rfl := Option.some.inj hcall
    exact asks_getAll keys withEmbeddings hname (h _ (.head _)) (h _ (.tail _ (.head _)))
  | remove collection key =>
    obtain rfl := Option.some.inj hcall
    exact asks_removeAll [key] hname (h _ (.head _)) (h _ (.tail _ (.head _)))
  | removeBatch collection keys =>
    obtain rfl := Option.some.inj hcall
    exact asks_removeAll keys hname (h _ (.head _)) (h _ (.tail _ (.head _)))
  | nearest collection embedding limit least withEmbeddings =>
    obtain rfl := Option.some.inj hcall
    exact asks_nearest withEmbeddings embedding limit least hname (h _ (.head _)) (h _ (.tail _ (.head _)))

end Requests

/-! ### Names in paths -/

/-- A suffix is nothing, or it starts a new part of the path. -/
theorem suffix_shape {suffix : String} (h : suffix ∈ call.suffixes) :
    suffix.toList = [] ∨ ∃ rest, suffix.toList = '/' :: rest := by
  have hall : ∀ suffix ∈ ["", "/points?wait=true", "/points", "/points/delete?wait=true", "/points/search"],
      suffix.toList = [] ∨ ∃ rest, suffix.toList = '/' :: rest := by
    intro suffix hsuffix
    simp only [List.mem_cons, List.not_mem_nil, or_false] at hsuffix
    rcases hsuffix with rfl | rfl | rfl | rfl | rfl
    · exact .inl rfl
    all_goals exact .inr ⟨_, rfl⟩
  refine hall suffix ?_
  cases call <;> simp only [Call.suffixes, List.mem_cons, List.not_mem_nil, or_false] at h ⊢ <;> tauto

theorem not_mem_of_not_misleads (h : ¬Misleads name) {mark : Char} (hmark : mark ∈ ['/', '\\', '?', '#', '%']) :
    mark ∉ name.toList :=
  fun hmem => h (.inr (.inr (.inr ⟨mark, hmem, .inl hmark⟩)))

/-- **One part.** A reader of addresses finds the name as one whole part of the path, and what follows it is made of
the parts of the suffix. -/
theorem partsOf_address (hname : ¬Misleads name) {suffix : String} (hsuffix : suffix ∈ call.suffixes) :
    Url.partsOf (address name suffix).toList =
      [] :: "collections".toList :: name.toList :: (Url.partsOf suffix.toList).tail := by
  have hplain : ∀ c ∈ name.toList, c ≠ '/' ∧ c ≠ '?' ∧ c ≠ '#' := fun c hc =>
    ⟨fun he => not_mem_of_not_misleads hname (by decide) (he ▸ hc),
      fun he => not_mem_of_not_misleads hname (by decide) (he ▸ hc),
      fun he => not_mem_of_not_misleads hname (by decide) (he ▸ hc)⟩
  have haddress : (address name suffix).toList =
      [] ++ '/' :: ("collections".toList ++ '/' :: (name.toList ++ suffix.toList)) := by
    simp [address]
  have hword : ∀ c ∈ "collections".toList, c ≠ '/' ∧ c ≠ '?' ∧ c ≠ '#' := by simp
  rw [haddress, Url.partsOf_append_slash (List.forall_mem_nil _), Url.partsOf_append_slash hword]
  rcases suffix_shape hsuffix with hnil | ⟨rest, hrest⟩
  · rw [hnil, List.append_nil, Url.partsOf_of_plain hplain]
    rfl
  · have hstart : Url.partsOf ('/' :: rest) = [] :: Url.partsOf rest :=
      Url.partsOf_append_slash (List.forall_mem_nil _)
    rw [hrest, Url.partsOf_append_slash hplain, hstart, List.tail_cons]

theorem address_inj {other : String} {otherCall : Call} (hname : ¬Misleads name) (hother : ¬Misleads other)
    {suffix otherSuffix : String} (hsuffix : suffix ∈ call.suffixes)
    (hotherSuffix : otherSuffix ∈ otherCall.suffixes)
    (h : address name suffix = address other otherSuffix) : name = other := by
  have hparts := partsOf_address hname hsuffix
  rw [h, partsOf_address hother hotherSuffix] at hparts
  simp only [List.cons.injEq, true_and] at hparts
  exact String.toList_inj.mp hparts.1.symm

/-- **A name keeps to its own part of an address.** Whatever else a call says and whatever the server answers: with a
name that would mislead, the call fails with that name and sends nothing. With any other name, all that it sends goes
to paths of its collection, in which the name is one whole part that stands for no directory, followed by the same
suffix for every name; and no call with another such name has the same path. -/
theorem answer_keepsToName (s : RemoteStore) (hcall : call.collection? = some name) :
    (Misleads name → ∀ log outcome, Ends (s.answer call) log outcome ↔
        log = [] ∧ outcome = .error (.invalidCollectionName name)) ∧
      (¬Misleads name →
        (∀ log outcome, Ends (s.answer call) log outcome → ∀ x ∈ log, ∃ suffix ∈ call.suffixes, ∃ request,
          x.request = .exchange request ∧ request.url = s.baseUrl ++ ("/collections/" ++ name ++ suffix)) ∧
        (∀ suffix ∈ call.suffixes, Url.partsOf ("/collections/" ++ name ++ suffix).toList =
          [] :: "collections".toList :: name.toList :: (Url.partsOf suffix.toList).tail) ∧
        Url.isHere name.toList = false ∧ Url.isAbove name.toList = false ∧
        ∀ otherCall other, Call.collection? otherCall = some other → ¬Misleads other →
          ∀ suffix ∈ call.suffixes, ∀ otherSuffix ∈ otherCall.suffixes,
            "/collections/" ++ name ++ suffix = "/collections/" ++ other ++ otherSuffix → name = other) := by
  refine ⟨fun hmisleads log outcome => ?_, fun hname => ⟨?_, ?_, ?_⟩⟩
  · rw [answer_of_misleads hcall hmisleads]
    exact ends_throw
  · have hasks : Asks (s.answer call) fun q => ∃ suffix ∈ call.suffixes, ∃ request,
        q = .exchange request ∧ request.url = s.baseUrl ++ address name suffix :=
      asks_answer hcall hname fun suffix hsuffix method body => ⟨suffix, hsuffix, _, rfl, rfl⟩
    exact fun log outcome hends => (hasks log outcome hends).1
  · exact fun suffix hsuffix => partsOf_address hname hsuffix
  · have hdots : name.toList ≠ ['.'] ∧ name.toList ≠ ['.', '.'] :=
      ⟨fun h => hname (.inr (.inl (String.toList_inj.mp h))),
        fun h => hname (.inr (.inr (.inl (String.toList_inj.mp h))))⟩
    obtain ⟨hhere, habove⟩ := Url.not_isHere_isAbove (not_mem_of_not_misleads hname (by decide)) hdots.1 hdots.2
    exact ⟨hhere, habove, fun _ _ _ hother _ hsuffix _ hotherSuffix =>
      address_inj hname hother hsuffix hotherSuffix⟩

/-- A server on this machine. -/
def localServer : RemoteStore := atAddress "http://localhost:6333/" none 3

theorem answer_keepsToName_notes :
    (∀ log outcome, Ends (localServer.answer (.holds "a/b")) log outcome ↔
      log = [] ∧ outcome = .error (.invalidCollectionName "a/b")) ∧
    ∀ log outcome, Ends (localServer.answer (.remove "notes" "a/b")) log outcome → ∀ x ∈ log,
      ∃ suffix ∈ ["", "/points/delete?wait=true"], ∃ request, x.request = .exchange request ∧
        request.url = localServer.baseUrl ++ ("/collections/" ++ "notes" ++ suffix) := by
  have hslash : Misleads "a/b" := .inr (.inr (.inr ⟨'/', by decide, .inl (by decide)⟩))
  have hnotes : ¬Misleads "notes" := isCollectionName_iff.mp (by decide)
  exact ⟨(answer_keepsToName localServer rfl).1 hslash, ((answer_keepsToName localServer rfl).2 hnotes).1⟩

end RemoteStore

end Memory

end Orchestration
