import Mathlib.Data.List.Sort
import Orchestration.Proofs.RepeatedCalls

/-!
# Vectors by their numbers

A model that makes vectors sends each with the number of the text that it belongs to. The vectors are counted and put in
the order of these numbers, which puts each in its place if every text has one vector; the numbers themselves are not
compared with those of the texts.

* `RemoteModel.InPlace` — every vector stands where its number says.
* `RemoteModel.inPlace_inOrder_iff` — so it is if the numbers are those of the texts, each once, and only then.
* `RemoteModel.EndsByNumber` — what comes of the vectors in a response.
* `RemoteModel.embed_endsByNumber` — every call for the vectors of texts ends so.
* `RemoteModel.embed_misplaces` — a number that comes twice is not refused.
-/

namespace Orchestration.RemoteModel

open Number

variable {found : List Numbered} {vectors : List Vector} {count : Nat}

/-- Each of the vectors has come with the number of its place. -/
def InPlace (found : List Numbered) (vectors : List Vector) : Prop :=
  ∀ i vector, vectors[i]? = some vector → ∃ e ∈ found, e.index = i ∧ e.embedding = vector

/-- The numbers of vectors. -/
def numbers (found : List Numbered) : List Nat := found.map (·.index)

/-- The same vectors, in the order of their numbers. -/
structure IsOrderOf (found order : List Numbered) : Prop where
  perm : order.Perm found
  ordered : order.Pairwise fun a b => a.index ≤ b.index

/-- The vectors in the order of their numbers, with these. -/
def ordered (found : List Numbered) : List Numbered := found.mergeSort fun a b => a.index ≤ b.index

theorem inOrder_eq (found : List Numbered) : inOrder found = (ordered found).map (·.embedding) := rfl

theorem isOrderOf_ordered (found : List Numbered) : IsOrderOf found (ordered found) where
  perm := List.mergeSort_perm found _
  ordered := by
    have hsorted : (ordered found).Pairwise fun a b => decide (a.index ≤ b.index) = true := by
      apply List.pairwise_mergeSort
      · intro a b c hab hbc
        simp only [decide_eq_true_eq] at *
        omega
      · intro a b
        simp only [Bool.or_eq_true, decide_eq_true_eq]
        omega
    exact hsorted.imp of_decide_eq_true

theorem length_inOrder (found : List Numbered) : (inOrder found).length = found.length := by
  rw [inOrder_eq, List.length_map, (isOrderOf_ordered found).perm.length_eq]

/-- Vectors with the numbers of the texts, each once, come to stand at their numbers. -/
theorem IsOrderOf.numbers_eq {order : List Numbered} (h : IsOrderOf found order)
    (hnumbers : (numbers found).Perm (List.range count)) : numbers order = List.range count := by
  have hperm : (numbers order).Perm (List.range count) := (h.perm.map _).trans hnumbers
  have hordered : (numbers order).Pairwise (· ≤ ·) := List.pairwise_map.mpr h.ordered
  exact hperm.eq_of_pairwise (fun a b _ _ => Nat.le_antisymm) hordered List.pairwise_le_range

theorem inPlace_of_perm (h : (numbers found).Perm (List.range count)) : InPlace found (inOrder found) := by
  intro i vector hvector
  have horder := isOrderOf_ordered found
  rw [inOrder_eq, List.getElem?_map, Option.map_eq_some_iff] at hvector
  obtain ⟨e, he, rfl⟩ := hvector
  refine ⟨e, horder.perm.mem_iff.mp (List.mem_of_getElem? he), ?_, rfl⟩
  have hnumber : (numbers (ordered found))[i]? = some e.index := by rw [numbers, List.getElem?_map, he]; rfl
  rw [horder.numbers_eq h] at hnumber
  exact (List.getElem?_eq_some_iff.mp hnumber).2.symm.trans (List.getElem_range _)

/-- **Vectors stand where their numbers say** just if these are the numbers of the texts, each once. -/
theorem inPlace_inOrder_iff (hcount : found.length = count) :
    InPlace found (inOrder found) ↔ (numbers found).Perm (List.range count) := by
  constructor
  · intro h
    -- every place has a vector, and so every number comes; there is no room for another
    have hsub : List.range count ⊆ numbers found := by
      intro i hi
      have hlt : i < (inOrder found).length := by
        rw [length_inOrder, hcount]
        exact List.mem_range.mp hi
      obtain ⟨e, hmem, rfl, -⟩ := h i _ (List.getElem?_eq_getElem hlt)
      exact List.mem_map_of_mem hmem
    have hlength : (numbers found).length ≤ (List.range count).length := by
      rw [numbers, List.length_map, List.length_range, hcount]
    exact ((List.subperm_of_subset List.nodup_range hsub).perm_of_length_le hlength).symm
  · exact inPlace_of_perm

/-! ### Calls -/

/-- **What comes of the vectors in a response** to a call for those of so many texts. -/
inductive EndsByNumber (count : Nat) (found : List Numbered) : Except AiError (List Vector) → Prop where
  /-- there are not as many as texts, and they are refused -/
  | miscounted (differs : found.length ≠ count) : EndsByNumber count found
      (.error (.invalidResponse s!"expected {count} embeddings, got {found.length}"))
  /-- there are as many as texts: they are put in order, and that is right just if their numbers are -/
  | counted {order : List Numbered} (same : found.length = count) (isOrder : IsOrderOf found order)
      (length : (order.map (·.embedding)).length = count)
      (inPlace_iff : InPlace found (order.map (·.embedding)) ↔ (numbers found).Perm (List.range count)) :
      EndsByNumber count found (.ok (order.map (·.embedding)))

theorem endsByNumber_vectorsFor (texts : List String) (found : List Numbered) :
    EndsByNumber texts.length found (vectorsFor texts found) := by
  rw [vectorsFor]
  split
  · next hsame =>
    rw [inOrder_eq]
    exact .counted hsame (isOrderOf_ordered found) ((length_inOrder found).trans hsame) (inPlace_inOrder_iff hsame)
  · next hdiffers => exact .miscounted hdiffers

theorem conclude_vectors (texts : List String) {r : Http.Response} (hsuccess : r.isSuccess = true)
    (hread : embeddingDecoder.read? r.body = some found) :
    conclude (fun r => (readBody embeddingDecoder r).bind (vectorsFor texts)) (.ok r) = vectorsFor texts found := by
  simp only [Http.Response.isSuccess, Bool.and_eq_true, decide_eq_true_eq] at hsuccess
  rw [conclude, if_pos hsuccess, readBody, hread]
  rfl

/-- **A call for the vectors of texts**, once it is answered with vectors: as many as texts are needed, and they come to
stand where their numbers say just if these are the numbers of the texts, each once. Any other numbers are taken too. -/
theorem embed_endsByNumber (m : RemoteModel) (text : String) (texts : List String) {log : List (Exchange Outside)}
    {ended : Except AiError (List Vector)} {r : Http.Response} {found : List Numbered}
    (h : Ends (m.embed (text :: texts)) log ended) (hlast : lastReply? log = some (.ok r))
    (hsuccess : r.isSuccess = true) (hread : embeddingDecoder.read? r.body = some found) :
    EndsByNumber (texts.length + 1) found ended := by
  obtain ⟨reply, hreply, rfl⟩ := (m.takesCourse_embed text texts).exists_lastReply h
  obtain rfl := Option.some.inj (hreply.symm.trans hlast)
  rw [conclude_vectors (text :: texts) hsuccess hread]
  exact endsByNumber_vectorsFor (text :: texts) found

/-! ### A number that comes twice -/

/-- A response with two vectors, both for the first text. -/
def doubled : Http.Response where
  status := 200
  body := "\x7b\"data\":[\x7b\"index\":0,\"embedding\":[1]\x7d,\x7b\"index\":0,\"embedding\":[2]\x7d]\x7d"

theorem exists_read_doubled : ∃ found, embeddingDecoder.read? doubled.body = some found ∧ numbers found = [0, 0] := by
  have hread : (embeddingDecoder.read? doubled.body).map numbers = some [0, 0] := by decide +kernel
  exact Option.map_eq_some_iff.mp hread

/-- The run of a call for the vectors of two texts that is answered so. -/
theorem ends_embed_doubled {found : List Numbered} (hread : embeddingDecoder.read? doubled.body = some found) :
    let m := RemoteModel.atAddress "http://localhost" "k" "m"
    Ends (m.embed ["a", "b"]) [tried (m.requestTo "/embeddings" (m.embeddingBody ["a", "b"])) (.ok doubled)]
      (vectorsFor ["a", "b"] found) := by
  intro m
  rw [← conclude_vectors ["a", "b"] rfl hread]
  exact (m.takesCourse_embed "a" ["b"]).ends_once (by decide)

/-- **A number that comes twice is not refused**, and a vector stands where another text is. -/
theorem embed_misplaces :
    ¬∀ (m : RemoteModel) (texts : List String) (log : List (Exchange Outside)) (ended : Except AiError (List Vector))
      (r : Http.Response) (found : List Numbered), texts ≠ [] → Ends (m.embed texts) log ended →
        lastReply? log = some (.ok r) → r.isSuccess = true → embeddingDecoder.read? r.body = some found →
          (∀ vectors, ended = .ok vectors → vectors.length = texts.length ∧ InPlace found vectors) ∧
            (¬(numbers found).Perm (List.range texts.length) → ∃ detail, ended = .error (.invalidResponse detail)) := by
  intro law
  obtain ⟨found, hread, hnumbers⟩ := exists_read_doubled
  have hcount : found.length = 2 := by simpa [numbers] using congrArg List.length hnumbers
  have hordered : vectorsFor ["a", "b"] found = .ok (inOrder found) := if_pos hcount
  obtain ⟨hinPlace, -⟩ := law _ ["a", "b"] _ _ doubled found nofun (ends_embed_doubled hread) rfl rfl hread
  have hperm := (inPlace_inOrder_iff hcount).mp (hinPlace _ hordered).2
  rw [hnumbers] at hperm
  exact absurd hperm (by decide)

theorem embed_endsByNumber_doubled :
    let m := RemoteModel.atAddress "http://localhost" "k" "m"
    let log := [tried (m.requestTo "/embeddings" (m.embeddingBody ["a", "b"])) (.ok doubled)]
    ∃ found, Ends (m.embed ["a", "b"]) log (vectorsFor ["a", "b"] found) ∧ lastReply? log = some (.ok doubled) ∧
      doubled.isSuccess = true ∧ embeddingDecoder.read? doubled.body = some found ∧ numbers found = [0, 0] ∧
        EndsByNumber 2 found (vectorsFor ["a", "b"] found) := by
  intro m log
  obtain ⟨found, hread, hnumbers⟩ := exists_read_doubled
  have hends := ends_embed_doubled hread
  exact ⟨found, hends, rfl, rfl, hread, hnumbers, embed_endsByNumber m "a" ["b"] hends rfl rfl hread⟩

end Orchestration.RemoteModel
