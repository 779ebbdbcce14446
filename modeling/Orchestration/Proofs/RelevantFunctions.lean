import Orchestration.Proofs.QualifiedNames
import Orchestration.Proofs.RankedSelection
import Orchestration.Proofs.Selection

/-!
# Functions by relevance

Where functions are chosen by relevance, their descriptions go through a list of vectors, a store of records under
names, a search of this store, and from the names that it finds back to the functions. As long as the names tell the
functions apart and the vectors are of one length, nothing is lost, doubled or mixed up on the way: what comes out is a
selection among the functions on offer, each by how close its own description is to the goal.

* `Registry.Filed.nodup_qualified` — functions without a dot in their names are shown under names of their own.
* `Memory.Volatile.upsertAll_alike` — a batch of vectors of one length is filed as a whole.
* `Planner.EmbedsAll` — every text got a vector, and all of one length.
* `Planner.closest_selects` — the choice is made, and it is a selection.
* `Planner.available_selects` — so it is in every kernel; without a threshold or a memory all are on offer that are not
  kept back.
-/

namespace Orchestration

open Text Number

/-! ### Names that tell functions apart -/

namespace Registry

variable {r : Registry}

/-- Views with one name for looking up are the same view. -/
theorem Filed.eq_of_qualified (h : r.Filed) (hdots : ∀ v ∈ r.views, '.' ∉ v.name.toList) {v w : FunctionView}
    (hv : v ∈ r.views) (hw : w ∈ r.views) (hsame : v.qualified = w.qualified) : v = w := by
  obtain ⟨f, hf, rfl⟩ := h.get_of_mem_views hv
  obtain ⟨g, hg, rfl⟩ := h.get_of_mem_views hw
  have hfind := (h.find_qualified_iff hf).mpr (hdots _ hv)
  rw [hsame, (h.find_qualified_iff hg).mpr (hdots _ hw)] at hfind
  rw [Except.ok.inj hfind]

/-- No view is listed twice. -/
theorem Filed.nodup_views (h : r.Filed) : r.views.Nodup := by
  refine h.views_ordered.imp fun {v w} hvw heq => ?_
  subst heq
  rcases hvw with hplugin | ⟨-, hname⟩
  · exact String.lt_irrefl _ hplugin
  · exact String.lt_irrefl _ hname

/-- **Functions without a dot in their names** are shown under names of their own. -/
theorem Filed.nodup_qualified (h : r.Filed) (hdots : ∀ v ∈ r.views, '.' ∉ v.name.toList) :
    (r.views.map (·.qualified)).Nodup :=
  h.nodup_views.map_on fun _ hv _ hw => h.eq_of_qualified hdots hv hw

end Registry

/-! ### Filing -/

namespace Dictionary

/-- Entries of different names are all there once they are put in. -/
theorem entries_ofList_perm {α : Type} {entries : List (String × α)} (h : (entries.map Prod.fst).Nodup) :
    (ofList entries).entries.Perm entries := by
  have hfound := (ofList entries).nodup_names
  refine (List.perm_ext_iff_of_nodup hfound.of_map h.of_map).mpr fun ⟨name, value⟩ => ?_
  rw [mem_entries_iff, ofList, get?_foldl_insert h, get?_empty, Option.or_none, lookupEntry_eq_some_iff h]

end Dictionary

namespace Memory

/-- How close two vectors of one length are. -/
def closeness (a b : Vector) : Float := (cosine a b).toOption.getD 0

theorem cosine_eq_closeness {a b : Vector} (h : a.length = b.length) : cosine a b = .ok (closeness a b) := by
  rw [closeness, cosine, if_pos h]
  dsimp only
  split <;> rfl

namespace Volatile

variable {v : Volatile} {collection : String} {records : Dictionary Record} {listed : List Record} {length : Nat}

/-- Where all vectors have one length, that is what is asked of a new one. -/
theorem eq_of_dimensions? (h : ∀ key record, records.get? key = some record → record.embedding.length = length)
    {key : String} {expected : Nat} (hdimensions : dimensions? records key = some expected) : expected = length := by
  obtain ⟨⟨other, record⟩, hfind, rfl⟩ := Option.map_eq_some_iff.mp hdimensions
  exact h other record (Dictionary.mem_entries_iff.mp (List.mem_of_find?_eq_some hfind))

/-- **A batch of vectors of one length** is filed as a whole where all vectors are of that length. -/
theorem upsertAll_alike (hcollection : v.collections.get? collection = some records)
    (hheld : ∀ key record, records.get? key = some record → record.embedding.length = length)
    (hlisted : ∀ record ∈ listed, record.embedding.length = length) :
    ∃ keys next, v.upsertAll collection listed = (.ok keys, next) ∧ next.collections.get? collection =
      some (listed.foldl (fun d record => d.insert record.effectiveKey record.filed) records) := by
  induction listed generalizing v records with
  | nil => exact ⟨[], v, rfl, hcollection⟩
  | cons record listed ih =>
    obtain ⟨hrecord, hrest⟩ := List.forall_mem_cons.mp hlisted
    have hfile : file records record = .ok (records.insert record.effectiveKey record.filed) := by
      rcases file_cases records record with ⟨-, hfile⟩ | ⟨expected, hdimensions, hodds, -⟩
      · exact hfile
      · rw [eq_of_dimensions? hheld hdimensions] at hodds
        exact absurd (.inr hrecord) hodds
    have hupsert : v.upsert collection record = (.ok record.effectiveKey,
        ⟨v.collections.insert collection (records.insert record.effectiveKey record.filed)⟩) := by
      simp only [upsert, hcollection, hfile]
    have hnext : ∀ key other, (records.insert record.effectiveKey record.filed).get? key = some other →
        other.embedding.length = length := by
      intro key other hget
      rw [Dictionary.get?_insert] at hget
      split at hget
      · obtain rfl := Option.some.inj hget
        exact hrecord
      · exact hheld key other hget
    obtain ⟨keys, next, hall, hfound⟩ := ih (v := (v.upsert collection record).2)
      (by rw [hupsert, Dictionary.get?_insert_self]) hnext hrest
    refine ⟨record.effectiveKey :: keys, next, ?_, hfound⟩
    rw [upsertAll_cons_of_ok (congrArg Prod.fst hupsert), hall]
    rfl

/-- Records whose vectors are as long as the query are all scored. -/
theorem scores_eq {query : Vector} (hne : query ≠ [])
    (hlisted : ∀ record ∈ listed, record.embedding.length = query.length) :
    scores listed query = .ok (listed.map fun record => ⟨record, closeness query record.embedding⟩) := by
  have hall : listed.filter (!·.embedding.isEmpty) = listed := by
    refine List.filter_eq_self.mpr fun record hrecord => ?_
    have hpos := List.length_pos_iff.mpr hne
    rw [← hlisted record hrecord] at hpos
    simpa using List.length_pos_iff.mp hpos
  obtain ⟨scored, hscored⟩ := scores_isOk fun record hrecord _ => hlisted record hrecord
  rw [hscored, scores_eq_map hscored, hall]
  rfl

end Volatile

end Memory

namespace Planner

open Memory

variable {k : Kernel} {c : Config.Planner} {goal : String} {embedder : Embedder} {threshold : Float}
  {views : List FunctionView} {vectors : List Vector} {vector : Vector} {length : Nat} {v : FunctionView}
  {log : List (Exchange Errands)} {outcome : Except PlanningError (List FunctionView)}

/-! ### Descriptions in a store -/

/-- The record of a description and its vector. -/
def described (p : FunctionView × Vector) : Record := .ofText p.1.qualified (manual p.1) none none p.2 none

theorem described_effectiveKey (p : FunctionView × Vector) : (described p).effectiveKey = p.1.qualified := ite_self _

theorem described_filed (p : FunctionView × Vector) : (described p).filed = described p := by
  rw [Record.filed, described_effectiveKey]
  rfl

/-- Each pair has the name of its view. -/
theorem map_qualified_zip (hlength : vectors.length = views.length) :
    (views.zip vectors).map (·.1.qualified) = views.map (·.qualified) := by
  have hviews : (views.zip vectors).map Prod.fst = views := List.map_fst_zip hlength.ge
  conv_rhs => rw [← hviews, List.map_map]
  rfl

/-- **All descriptions are filed**, each under the name of its function. -/
theorem index_eq_ok (hlength : vectors.length = views.length) (hsame : ∀ x ∈ vectors, x.length = length)
    (hnames : (views.map (·.qualified)).Nodup) :
    ∃ store records, index views vectors = .ok store ∧ store.collections.get? indexName = some records ∧
      records.values.Perm ((views.zip vectors).map described) := by
  have hrecord : ∀ record ∈ (views.zip vectors).map described, record.embedding.length = length := by
    intro record hrecord
    obtain ⟨p, hp, rfl⟩ := List.mem_map.mp hrecord
    exact hsame p.2 (List.of_mem_zip hp).2
  have hcreated : ((∅ : Volatile).answer (.create indexName)).2.collections.get? indexName = some ∅ := by decide
  obtain ⟨keys, store, hall, hfound⟩ := Volatile.upsertAll_alike hcreated nofun hrecord
  refine ⟨store, _, ?_, hfound, ?_⟩
  · have hmap (f : FunctionView × Vector → Record) (hf : f = described) :
        (views.zip vectors).map f = (views.zip vectors).map described := congrArg (List.map · _) hf
    rw [index, hmap]
    · simp only [hall]
    · rfl
  · -- the names are those of the views, so that no description takes the place of another
    let entries := (views.zip vectors).map fun p => (p.1.qualified, described p)
    have hentries : (entries.map Prod.fst).Nodup := by
      rw [List.map_map]
      exact (map_qualified_zip hlength).symm ▸ hnames
    have hfold : ((views.zip vectors).map described).foldl
        (fun d record => d.insert record.effectiveKey record.filed) ∅ = Dictionary.ofList entries := by
      simp only [entries, Dictionary.ofList, List.foldl_map, described_effectiveKey, described_filed]
    have hvalues : entries.map Prod.snd = (views.zip vectors).map described := List.map_map ..
    rw [hfold, ← hvalues]
    exact (Dictionary.entries_ofList_perm hentries).map Prod.snd

/-- A description as a search scores it. -/
def scoredAgainst (vector : Vector) (p : FunctionView × Vector) : Scored := ⟨described p, closeness vector p.2⟩

/-- **A search through the descriptions** finds a selection of them. -/
theorem nearest_described (hne : vector ≠ []) (hsame : ∀ x ∈ vectors, x.length = vector.length)
    (hlength : vectors.length = views.length) (hnames : (views.map (·.qualified)).Nodup) {store : Volatile}
    {records : Dictionary Record} (hfound : store.collections.get? indexName = some records)
    (hrecords : records.values.Perm ((views.zip vectors).map described)) (limit : Nat) (threshold : Float) :
    ∃ found, store.nearest indexName vector limit threshold false =
        .ok (found.map fun s => { s with record := s.record.shown false }) ∧
      IsSelection Scored.relevance (·.record.effectiveKey) limit threshold
        ((views.zip vectors).map (scoredAgainst vector)) found := by
  let score (record : Record) : Scored := ⟨record, closeness vector record.embedding⟩
  have hscored : ((views.zip vectors).map (scoredAgainst vector)).Perm (records.values.map score) := by
    have hmap : ((views.zip vectors).map described).map score = (views.zip vectors).map (scoredAgainst vector) :=
      List.map_map ..
    rw [← hmap]
    exact (hrecords.map score).symm
  have hkeys : ((records.values.map score).map (·.record.effectiveKey)).Nodup := by
    rw [← (hscored.map _).nodup_iff, List.map_map]
    have hqualified : (views.zip vectors).map ((·.record.effectiveKey) ∘ scoredAgainst vector) =
        (views.zip vectors).map (·.1.qualified) := List.map_congr_left fun p _ => described_effectiveKey p
    rw [hqualified, map_qualified_zip hlength]
    exact hnames
  refine ⟨best limit threshold (records.values.map score), ?_, (best_isSelection hkeys limit threshold).perm hscored⟩
  have hvectors : ∀ record ∈ records.values, record.embedding.length = vector.length := by
    intro record hrecord
    obtain ⟨p, hp, rfl⟩ := List.mem_map.mp (hrecords.mem_iff.mp hrecord)
    exact hsame p.2 (List.of_mem_zip hp).2
  simp only [Volatile.nearest, hfound, Volatile.scores_eq hne hvectors]
  split
  · next hlimit => rw [hlimit, best, List.take_zero, List.map_nil]
  · rfl

/-! ### Back to the functions -/

/-- Among views of different names each is found by its own. -/
theorem viewNamed?_qualified (hnames : (views.map (·.qualified)).Nodup) (hv : v ∈ views) :
    viewNamed? views v.qualified = some v := by
  cases hfind : viewNamed? views v.qualified with
  | none => exact absurd (decide_eq_true rfl) (List.find?_eq_none.mp hfind v (List.mem_reverse.mpr hv))
  | some w =>
    have hsame : w.qualified = v.qualified := by simpa using List.find?_some hfind
    rw [List.inj_on_of_nodup_map hnames (mem_of_viewNamed? hfind) hv hsame]

/-- **The views of the descriptions that were found** are a selection among all. -/
theorem isSelection_views (hlength : vectors.length = views.length) (hnames : (views.map (·.qualified)).Nodup)
    {relevance : FunctionView → Float} (hrelevance : ∀ p ∈ views.zip vectors, relevance p.1 = closeness vector p.2)
    {limit : Nat} {found : List Scored}
    (h : IsSelection Scored.relevance (·.record.effectiveKey) limit threshold
      ((views.zip vectors).map (scoredAgainst vector)) found) :
    IsSelection relevance (·.qualified) limit threshold views
      (found.filterMap (viewNamed? views ·.record.metadata.id)) := by
  let viewOf (s : Scored) : FunctionView := (viewNamed? views s.record.metadata.id).getD default
  have hview : ∀ p ∈ views.zip vectors, viewNamed? views (scoredAgainst vector p).record.metadata.id = some p.1 :=
    fun p hp => viewNamed?_qualified hnames (List.of_mem_zip hp).1
  have hviewOf : ∀ p ∈ views.zip vectors, viewOf (scoredAgainst vector p) = p.1 := by
    intro p hp
    simp only [viewOf, hview p hp, Option.getD_some]
  have hfound : found.filterMap (viewNamed? views ·.record.metadata.id) = found.map viewOf := by
    refine List.filterMap_eq_map_iff_forall_eq_some.mpr fun s hs => ?_
    obtain ⟨p, hp, rfl⟩ := List.mem_map.mp (h.taken s hs)
    rw [hviewOf p hp, hview p hp]
  have hviews : ((views.zip vectors).map (scoredAgainst vector)).map viewOf = views := by
    have hfst : (views.zip vectors).map (viewOf ∘ scoredAgainst vector) = (views.zip vectors).map Prod.fst :=
      List.map_congr_left hviewOf
    rw [List.map_map, hfst, List.map_fst_zip hlength.ge]
  have hselection : IsSelection relevance (·.qualified) limit threshold
      (((views.zip vectors).map (scoredAgainst vector)).map viewOf) (found.map viewOf) := by
    refine h.map (fun s hs => ?_) fun s hs => ?_
    · obtain ⟨p, hp, rfl⟩ := List.mem_map.mp hs
      rw [hviewOf p hp, hrelevance p hp]
      rfl
    · obtain ⟨p, hp, rfl⟩ := List.mem_map.mp hs
      rw [hviewOf p hp]
      exact (described_effectiveKey p).symm
  rwa [hviews, ← hfound] at hselection

/-! ### Runs -/

/-- Every request for vectors was answered with one for each text, and all of them have the length. -/
def EmbedsAll (length : Nat) (log : List (Exchange Errands)) : Prop :=
  ∀ service texts (answer : Except AiError (List Vector)),
    (⟨.embed service texts, answer⟩ : Exchange Errands) ∈ log →
      ∃ vectors, answer = .ok vectors ∧ vectors.length = texts.length ∧ ∀ x ∈ vectors, x.length = length

/-- The relevances are those of the vectors that were made of the descriptions, each to the one that was made of the
goal. -/
def Rates (embedder : Embedder) (goal : String) (views : List FunctionView) (log : List (Exchange Errands))
    (relevance : FunctionView → Float) : Prop :=
  ∃ vectors vector,
    log = [⟨.embed embedder (views.map manual), .ok vectors⟩, ⟨.embed embedder [goal], .ok [vector]⟩] ∧
      vectors.length = views.length ∧ ∀ p ∈ views.zip vectors, cosine vector p.2 = .ok (relevance p.1)

namespace EmbedsAll

theorem of_append {first later : List (Exchange Errands)} (h : EmbedsAll length (first ++ later)) :
    EmbedsAll length first ∧ EmbedsAll length later :=
  ⟨fun _ _ _ hmem => h _ _ _ (List.mem_append_left _ hmem), fun _ _ _ hmem => h _ _ _ (List.mem_append_right _ hmem)⟩

/-- Vectors that are asked for come. -/
theorem ends_embed (h : EmbedsAll length log) {texts : List String} {outcome : Except AiError (List Vector)}
    (hends : Ends (Task.embed embedder texts) log outcome) :
    ∃ vectors, outcome = .ok vectors ∧ log = [⟨.embed embedder texts, .ok vectors⟩] ∧
      vectors.length = texts.length ∧ ∀ x ∈ vectors, x.length = length := by
  obtain rfl := Task.ends_embed.mp hends
  obtain ⟨vectors, rfl, hlength, hsame⟩ := h _ _ _ List.mem_cons_self
  exact ⟨vectors, rfl, rfl, hlength, hsame⟩

/-- So does a single one. -/
theorem ends_embedOne (h : EmbedsAll length log) {text : String} {outcome : Except AiError Vector}
    (hends : Ends (Task.embedOne embedder text) log outcome) :
    ∃ vector, outcome = .ok vector ∧ log = [⟨.embed embedder [text], .ok [vector]⟩] ∧ vector.length = length := by
  rcases ends_bind.mp hends with ⟨e, hfail, -⟩ | ⟨first, vectors, later, hfirst, hrest, rfl⟩
  · obtain ⟨_, he, -⟩ := h.ends_embed hfail
    cases he
  · obtain ⟨_, hvectors, rfl, hlength, hsame⟩ := h.of_append.1.ends_embed hfirst
    obtain rfl := Except.ok.inj hvectors
    obtain ⟨vector, rfl⟩ := List.length_eq_one_iff.mp hlength
    obtain ⟨rfl, rfl⟩ := ends_pure.mp hrest
    exact ⟨vector, rfl, rfl, hsame vector List.mem_cons_self⟩

end EmbedsAll

/-- What is had of pairs with different first parts can be had of these parts. -/
theorem exists_value {α β γ : Type} [Inhabited γ] {pairs : List (α × β)} (h : (pairs.map Prod.fst).Nodup)
    (f : α × β → γ) : ∃ value : α → γ, ∀ p ∈ pairs, value p.1 = f p := by
  classical
  refine ⟨fun a => if hex : ∃ p ∈ pairs, p.1 = a then f hex.choose else default, fun p hp => ?_⟩
  have hex : ∃ q ∈ pairs, q.1 = p.1 := ⟨p, hp, rfl⟩
  obtain ⟨hmem, hsame⟩ := hex.choose_spec
  refine (dif_pos hex).trans ?_
  rw [List.inj_on_of_nodup_map h hmem hp hsame]

/-- **The choice is made** where all texts get vectors of one length, and it is a selection. -/
theorem closest_selects (hnames : (views.map (·.qualified)).Nodup) (hpos : length ≠ 0)
    (h : Ends (closest c threshold embedder goal views) log outcome) (hembeds : EmbedsAll length log) :
    ∃ found relevance, outcome = .ok found ∧ Rates embedder goal views log relevance ∧
      IsSelection relevance (·.qualified) c.maxRelevantFunctions threshold views found := by
  -- the vectors of the descriptions
  rcases Task.ends_mapError_bind.mp h with ⟨e, hfail, -⟩ | ⟨first, vectors, later, hfirst, hrest, rfl⟩
  · obtain ⟨_, he, -⟩ := hembeds.ends_embed hfail
    cases he
  obtain ⟨hembeds, hlater⟩ := hembeds.of_append
  obtain ⟨_, hvectors, rfl, hlength, hsame⟩ := hembeds.ends_embed hfirst
  obtain rfl := Except.ok.inj hvectors
  rw [List.length_map] at hlength
  -- a store of them
  obtain ⟨store, records, hindex, hfound, hrecords⟩ := index_eq_ok hlength hsame hnames
  rw [hindex] at hrest
  -- the vector of the goal
  rcases Task.ends_mapError_bind.mp (Task.ends_ok_bind.mp hrest) with
    ⟨e, hfail, -⟩ | ⟨second, vector, last, hsecond, hlast, rfl⟩
  · obtain ⟨_, he, -⟩ := hlater.ends_embedOne hfail
    cases he
  obtain ⟨_, hvector, rfl, hgoal⟩ := hlater.of_append.1.ends_embedOne hsecond
  obtain rfl := Except.ok.inj hvector
  -- what is found by it
  have hne : vector ≠ [] := fun hempty => hpos (by rw [← hgoal, hempty, List.length_nil])
  have hsame : ∀ x ∈ vectors, x.length = vector.length := fun x hx => (hsame x hx).trans hgoal.symm
  obtain ⟨found, hnearest, hselection⟩ :=
    nearest_described hne hsame hlength hnames hfound hrecords c.maxRelevantFunctions threshold
  rw [hnearest] at hlast
  obtain ⟨rfl, rfl⟩ := ends_pure.mp (Task.ends_ok_bind.mp hlast)
  have hviews : ((views.zip vectors).map Prod.fst).Nodup := by
    rw [List.map_fst_zip hlength.ge]
    exact hnames.of_map
  obtain ⟨relevance, hrelevance⟩ := exists_value hviews fun p => closeness vector p.2
  refine ⟨_, relevance, rfl, ⟨vectors, vector, rfl, hlength, fun p hp => ?_⟩, ?_⟩
  · rw [hrelevance p hp]
    exact cosine_eq_closeness (hsame p.2 (List.of_mem_zip hp).2).symm
  · rw [List.filterMap_map]
    exact isSelection_views hlength hnames hrelevance hselection

/-- **What is on offer for a goal.** Without a threshold or a memory it is all that is not kept back, in the order of
the registry, and nothing is asked for. With both, as long as no function has a dot in its name, and whatever vectors
come, if there is one for each text and all of one length: the choice is made, and it is a selection among these
functions, each by how close the vector of its own description is to that of the goal. -/
theorem available_selects (steps : List Assembly) (c : Config.Planner) (goal : String)
    (hdots : ∀ v ∈ (Kernel.assembled steps).registry.views, '.' ∉ v.name.toList) :
    let k := Kernel.assembled steps
    let views := k.registry.views.filter (!isExcluded c ·)
    (c.relevancyThreshold = none ∨ k.memory = none → available k c goal = pure views) ∧
      ∀ threshold memory, c.relevancyThreshold = some threshold → k.memory = some memory →
        ∀ length log outcome, length ≠ 0 → Ends (available k c goal) log outcome → EmbedsAll length log →
          ∃ found relevance, outcome = .ok found ∧
            (views ≠ [] → Rates memory.embedder goal views log relevance) ∧
              IsSelection relevance FunctionView.qualified c.maxRelevantFunctions threshold views found := by
  intro k views
  constructor
  · exact available_of_all
  intro threshold memory hthreshold hmemory length log outcome hpos hends hembeds
  have hviews : offered k c = views := rfl
  rw [available, hthreshold, hmemory, hviews] at hends
  dsimp only at hends
  split at hends
  · next hempty =>
    obtain ⟨-, rfl⟩ := ends_pure.mp hends
    have hnone : views = [] := List.isEmpty_iff.mp hempty
    refine ⟨views, fun _ => 0, rfl, fun hne => absurd hnone hne, ?_⟩
    rw [hnone]
    exact isSelection_nil
  · have hnames : (views.map (·.qualified)).Nodup :=
      ((Kernel.filed_assembled steps).nodup_qualified hdots).sublist (List.filter_sublist.map _)
    obtain ⟨found, relevance, houtcome, hrates, hselection⟩ := closest_selects hnames hpos hends hembeds
    exact ⟨found, relevance, houtcome, fun _ => hrates, hselection⟩

/-! ### Vectors by length -/

/-- Vectors that tell the length of a text, and no other answers. -/
def lengthAnswer : (r : Errand) → r.Answer
  | .embed _ texts => .ok (texts.map fun text => [.ofNat text.length, .ofNat 1])
  | .complete .. => .error (.invalidResponse "")
  | .call .. => .error (.text "")

theorem embedsAll_of_lengthAnswer (h : ∀ x ∈ log, x.answer = lengthAnswer x.request) : EmbedsAll 2 log := by
  intro service texts answer hmem
  refine ⟨_, h _ hmem, List.length_map .., fun x hx => ?_⟩
  obtain ⟨text, -, rfl⟩ := List.mem_map.mp hx
  rfl

/-- Three functions and a memory. -/
def remembering : List Assembly := [.register "text" (.echo "upper"), .register "text" (.echo "lower"),
  .register "" (.echo "joke"), .attachMemory ⟨.inPlace .volatile, ⟨fun _ => pure []⟩⟩]

/-- Two functions at most are to be offered, and one is kept back. -/
def twoClosest : Config.Planner where
  relevancyThreshold := some 0.5
  maxRelevantFunctions := 2
  excludedFunctions := ["text.lower"]

/-- With these vectors the two functions that are not kept back are chosen from. -/
theorem available_selects_byLength :
    let k := Kernel.assembled remembering
    let views := k.registry.views.filter (!isExcluded twoClosest ·)
    (∀ v ∈ k.registry.views, '.' ∉ v.name.toList) ∧ views.map (·.qualified) = ["joke", "text.upper"] ∧
      ∃ log found relevance, Ends (available k twoClosest "laugh") log (.ok found) ∧ EmbedsAll 2 log ∧
        IsSelection relevance FunctionView.qualified 2 0.5 views found := by
  intro k views
  have hdots : ∀ v ∈ k.registry.views, '.' ∉ v.name.toList := by decide +kernel
  have hviews : views.map (·.qualified) = ["joke", "text.upper"] := by decide +kernel
  obtain ⟨log, outcome, hends, hanswers⟩ := Program.exists_answered lengthAnswer (available k twoClosest "laugh").run
  have hembeds := embedsAll_of_lengthAnswer hanswers
  obtain ⟨found, relevance, rfl, -, hselection⟩ :=
    (available_selects remembering twoClosest "laugh" hdots).2 0.5 _ rfl rfl 2 log outcome two_ne_zero hends hembeds
  exact ⟨hdots, hviews, log, found, relevance, hends, hembeds, hselection⟩

end Planner

end Orchestration
