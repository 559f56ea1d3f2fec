import AnalogConnect.Library.JoinedSets
import AnalogConnect.ScoNodes

/-!
# The SCO nodes located are those of the set of nodes

Sorted and without repetitions, the serials pushed to either side are their set, so what is located
is read off the two sets (`sco_nodes_by_sets`): the order of the objects and their repetitions do
not matter.
-/

namespace AnalogConnect

open JoinedSets

namespace ScoNodeLocator

variable {objects objects' : List JsonValue} {fromStr : String → Option JsonValue}
  {text text' : String}

/-- The serial of a node that a factory made. -/
def madeBy (factory : String) (object : JsonValue) : Option ℕ :=
  if factoryName object = some factory then nodeSerial object else none

/-- The serials of the nodes a factory made. -/
def serials (factory : String) (objects : List JsonValue) : Finset ℕ :=
  (objects.filterMap (madeBy factory)).toFinset

theorem collect_eq : ∀ (objects : List JsonValue) (sources sinks : List ℕ),
    collect (sources, sinks) objects = (sources ++ objects.filterMap (madeBy sourceFactory),
      sinks ++ objects.filterMap (madeBy sinkFactory))
  | [], sources, sinks => by
    rw [List.filterMap_nil, List.filterMap_nil, List.append_nil, List.append_nil]
    rfl
  | object :: objects, sources, sinks => by
    rw [collect, List.filterMap_cons, List.filterMap_cons]
    cases hserial : nodeSerial object with
    | none =>
      have hnone : ∀ factory, madeBy factory object = none := fun factory => by
        unfold madeBy
        rw [hserial, ite_self]
      rw [hnone, hnone]
      exact collect_eq objects sources sinks
    | some serial =>
      have hmade : ∀ factory, madeBy factory object =
          if factoryName object = some factory then some serial else none := fun factory => by
        unfold madeBy
        rw [hserial]
      rw [hmade, hmade]
      by_cases hsource : factoryName object = some sourceFactory
      · have hsink : factoryName object ≠ some sinkFactory := by
          rw [hsource]
          decide
        simp only [if_pos hsource, if_neg hsink]
        rw [collect_eq objects, List.append_assoc, List.singleton_append]
      · by_cases hsink : factoryName object = some sinkFactory
        · simp only [if_neg hsource, if_pos hsink]
          rw [collect_eq objects, List.append_assoc, List.singleton_append]
        · simp only [if_neg hsource, if_neg hsink]
          exact collect_eq objects sources sinks

theorem serials_congr (h : ∀ object, object ∈ objects' ↔ object ∈ objects) (factory : String) :
    serials factory objects' = serials factory objects := by
  ext serial
  unfold serials
  simp only [List.mem_toFinset, List.mem_filterMap, h]

theorem locate_eq (h : fromStr text = some (.array objects)) :
    locate fromStr (.ok text) = checkSerials
      (sortedDistinct (objects.filterMap (madeBy sourceFactory)))
      (sortedDistinct (objects.filterMap (madeBy sinkFactory))) := by
  have hobjects : (fromStr text).bind (·.asArray) = some objects := by
    rw [h]
    rfl
  unfold locate
  simp only [hobjects]
  rw [collect_eq, List.nil_append, List.nil_append]
  simp only [sortedSerials, destutter_insertionSort]

theorem checkSerials_ok {sources sinks : List ℕ} {pair : ScoNodePair} :
    checkSerials sources sinks = .ok pair ↔
      sources = [pair.sourceSerial] ∧ sinks = [pair.sinkSerial] ∧
        pair.sourceSerial ≠ pair.sinkSerial := by
  obtain ⟨source, sink⟩ := pair
  constructor
  · intro h
    unfold checkSerials at h
    split at h
    · cases h
    · split at h
      · cases h
      · cases h
        exact ⟨rfl, rfl, ‹_›⟩
    · cases h
  · rintro ⟨rfl, rfl, hne⟩
    exact if_neg hne

theorem checkSerials_absent {sources sinks : List ℕ} :
    checkSerials sources sinks = .error .absent ↔ sources = [] ∧ sinks = [] := by
  constructor
  · intro h
    unfold checkSerials at h
    split at h
    · exact ⟨rfl, rfl⟩
    · split at h
      · cases h
      · cases h
    · cases h
  · rintro ⟨rfl, rfl⟩
    rfl

theorem checkSerials_cases (sources sinks : List ℕ) :
    (∃ pair, checkSerials sources sinks = .ok pair) ∨
      checkSerials sources sinks = .error .absent ∨
        checkSerials sources sinks = .error .ambiguous := by
  unfold checkSerials
  split
  · exact .inr (.inl rfl)
  · split
    · exact .inr (.inr rfl)
    · exact .inl ⟨_, rfl⟩
  · exact .inr (.inr rfl)

/-- A pair is located when one serial is found on either side and they differ, and nothing is
absent unless no serial is found. Only the set of the objects matters. -/
theorem sco_nodes_by_sets (h : fromStr text = some (.array objects)) :
    (∀ pair, locate fromStr (.ok text) = .ok pair ↔
      serials sourceFactory objects = {pair.sourceSerial} ∧
        serials sinkFactory objects = {pair.sinkSerial} ∧
          pair.sourceSerial ≠ pair.sinkSerial) ∧
      (locate fromStr (.ok text) = .error .absent ↔
        serials sourceFactory objects = ∅ ∧ serials sinkFactory objects = ∅) ∧
      (locate fromStr (.ok text) = .error .ambiguous ↔
        ¬ (serials sourceFactory objects = ∅ ∧ serials sinkFactory objects = ∅) ∧
          ∀ source sink, source ≠ sink → ¬ (serials sourceFactory objects = {source} ∧
            serials sinkFactory objects = {sink})) ∧
      ∀ text' objects', fromStr text' = some (.array objects') →
        (∀ object, object ∈ objects' ↔ object ∈ objects) →
          locate fromStr (.ok text') = locate fromStr (.ok text) := by
  have hok : ∀ pair, locate fromStr (.ok text) = .ok pair ↔
      serials sourceFactory objects = {pair.sourceSerial} ∧
        serials sinkFactory objects = {pair.sinkSerial} ∧
          pair.sourceSerial ≠ pair.sinkSerial := fun pair => by
    rw [locate_eq h, checkSerials_ok, sortedDistinct_eq_singleton, sortedDistinct_eq_singleton]
    rfl
  have habsent : locate fromStr (.ok text) = .error .absent ↔
      serials sourceFactory objects = ∅ ∧ serials sinkFactory objects = ∅ := by
    rw [locate_eq h, checkSerials_absent, sortedDistinct_eq_nil, sortedDistinct_eq_nil]
    rfl
  refine ⟨hok, habsent, ⟨fun hambiguous => ⟨fun hempty => ?_, ?_⟩, fun hneither => ?_⟩, ?_⟩
  · rw [habsent.2 hempty] at hambiguous
    cases hambiguous
  · rintro source sink hne ⟨hsource, hsink⟩
    rw [(hok ⟨source, sink⟩).2 ⟨hsource, hsink, hne⟩] at hambiguous
    cases hambiguous
  · have hcases := checkSerials_cases
      (sortedDistinct (objects.filterMap (madeBy sourceFactory)))
      (sortedDistinct (objects.filterMap (madeBy sinkFactory)))
    rw [← locate_eq h] at hcases
    obtain ⟨pair, hpair⟩ | hnone | hambiguous := hcases
    · obtain ⟨hsource, hsink, hne⟩ := (hok pair).1 hpair
      exact absurd ⟨hsource, hsink⟩ (hneither.2 _ _ hne)
    · exact absurd (habsent.1 hnone) hneither.1
    · exact hambiguous
  · intro text' objects' h' hsame
    have hlists : ∀ factory, sortedDistinct (objects'.filterMap (madeBy factory)) =
        sortedDistinct (objects.filterMap (madeBy factory)) := fun factory =>
      sortedDistinct_eq_iff.2 (serials_congr hsame factory)
    rw [locate_eq h, locate_eq h', hlists, hlists]

/-- A node of a factory, as the dump has it. -/
def scoNode (factory serial : String) : JsonValue :=
  .object [("type", .string nodeType), ("info", .object [("props",
    .object [("object.serial", .string serial), ("factory.name", .string factory)])])]

theorem sco_nodes_by_sets_two :
    serials sourceFactory [scoNode sourceFactory "701", scoNode sinkFactory "702"] = {701} ∧
      locate (fun _ => some (.array [scoNode sourceFactory "701", scoNode sinkFactory "702"]))
        (.ok "") = .ok ⟨701, 702⟩ := by
  have hsource : serials sourceFactory
      [scoNode sourceFactory "701", scoNode sinkFactory "702"] = {701} := by decide
  have hsink : serials sinkFactory
      [scoNode sourceFactory "701", scoNode sinkFactory "702"] = {702} := by decide
  exact ⟨hsource, ((sco_nodes_by_sets rfl).1 ⟨701, 702⟩).2
    ⟨hsource, hsink, by decide⟩⟩

end ScoNodeLocator

end AnalogConnect
