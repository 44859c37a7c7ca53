import NamespacePlan.Planner
import NamespacePlan.Proofs.TableContents

/-! What one query of a planner does, and from it what a whole run does. A lenient planner puts the
placeholder for an unknown namespace and warns; a strict one stops at the first of them. -/
namespace NamespacePlan

def warnings (events : List Event) : List Event := events.filter fun e => e.level = .warning

theorem warnings_append (es fs : List Event) : warnings (es ++ fs) = warnings es ++ warnings fs :=
  List.filter_append es fs

namespace Planner

/-- The planner of schemas that are in no conflict. -/
def ofSchemas (ds : List Descriptor) (root : String) (optimize strict : Bool) (home : String) :
    Planner :=
  let table := NamespaceTable.ofSchemas ds root optimize strict defaultOverrides
  ⟨home, table,
    ⟨optimize, root, table.entries.get? baseDocument, ImportGraph.build optimize root⟩⟩

theorem outcome_build_eq_ok_iff (ds : List Descriptor) (root : String) (optimize strict : Bool)
    (home : String) (p : Planner) :
    (build ds root optimize strict home).outcome = .ok p ↔
      root ≠ "" ∧ SinglePrefix ds ∧ p = ofSchemas ds root optimize strict home := by
  have table := NamespaceTable.outcome_build_eq_ok_iff ds root optimize strict defaultOverrides
  unfold build
  cases h : (NamespaceTable.build ds root optimize strict).outcome with
  | error e =>
    rw [Reported.bind_of_error h]
    have failed : ¬ (root ≠ "" ∧ SinglePrefix ds) := fun good =>
      nomatch h.symm.trans ((table _).2 ⟨good.1, good.2, rfl⟩)
    constructor
    · intro impossible
      cases impossible
    · rintro ⟨named, single, _⟩
      exact absurd ⟨named, single⟩ failed
  | ok t =>
    obtain ⟨named, single, rfl⟩ := (table t).1 h
    rw [Reported.bind_of_ok h, ImportResolver.build?, if_neg named]
    constructor
    · intro built
      exact ⟨named, single, (Except.ok.inj built).symm⟩
    · rintro ⟨_, _, rfl⟩
      rfl

theorem events_build (ds : List Descriptor) (root : String) (optimize strict : Bool)
    (home : String) :
    (build ds root optimize strict home).events =
      (build ds root optimize false home).events := by
  unfold build NamespaceTable.build NamespaceTable.build?
  by_cases empty : root = ""
  · rw [if_pos empty, if_pos empty]
  · rw [if_neg empty, if_neg empty]
    cases Prefixes.collect ds with
    | error c => rfl
    | ok bs =>
      simp only [ImportResolver.build?, if_neg empty]
      rfl

/-! One query. -/

def unitAt (p : Planner) (uri output : String) : PlannedUnit :=
  { namespaceName := output
    header := Banner.render (p.resolver.documentationFor output) p.home
    imports := p.resolver.importsFor output (some uri)
    documentation := p.resolver.documentationFor output
    xmlNamespace := some uri }

/-- The unit that a lenient planner gives to a namespace. -/
def unitOf (p : Planner) (uri : String) : PlannedUnit :=
  p.unitAt uri ((p.table.entries.get? uri).getD unresolved)

def importsReport (p : Planner) (uri output : String) : Event :=
  .importsResolved (p.resolver.importsFor output (some uri)).length output

theorem planNamespace_of_listed {p : Planner} {uri output : String}
    (listed : p.table.entries.get? uri = some output) :
    p.planNamespace uri = ⟨[p.importsReport uri output], .ok (p.unitOf uri)⟩ := by
  simp only [planNamespace, NamespaceTable.resolve, listed, unitOf, Option.getD_some]
  rfl

theorem planNamespace_of_missing {p : Planner} {uri : String}
    (missing : p.table.entries.get? uri = none) (lenient : p.table.strict = false) :
    p.planNamespace uri =
      ⟨[.unknownNamespace uri, p.importsReport uri unresolved], .ok (p.unitOf uri)⟩ := by
  simp only [planNamespace, NamespaceTable.resolve, missing, lenient, unitOf, Option.getD_none]
  rfl

theorem planNamespace_of_missing_strict {p : Planner} {uri : String}
    (missing : p.table.entries.get? uri = none) (strict : p.table.strict = true) :
    p.planNamespace uri = ⟨[], .error (.unknownNamespace uri)⟩ := by
  simp only [planNamespace, NamespaceTable.resolve, missing, strict, if_true]
  rfl

theorem outcome_planNamespace_of_listed {p : Planner} {uri output : String}
    (listed : p.table.entries.get? uri = some output) :
    (p.planNamespace uri).outcome = .ok (p.unitAt uri output) := by
  rw [planNamespace_of_listed listed, unitOf, listed, Option.getD_some]

theorem outcome_planNamespace_of_missing {p : Planner} {uri : String}
    (missing : p.table.entries.get? uri = none) (lenient : p.table.strict = false) :
    (p.planNamespace uri).outcome = .ok (p.unitAt uri unresolved) := by
  rw [planNamespace_of_missing missing lenient, unitOf, missing, Option.getD_none]

/-! A whole run. -/

/-- The schemas whose namespace is in no table, in order. -/
def missing (p : Planner) (ds : List Descriptor) : List Descriptor :=
  ds.filter fun d => d.target ∉ p.table.entries.keys

theorem missing_cons_of_none {p : Planner} {d : Descriptor}
    (found : p.table.entries.get? d.target = none) (ds : List Descriptor) :
    p.missing (d :: ds) = d :: p.missing ds := by
  have absent := (OrderedMap.get?_eq_none_iff _ _).1 found
  simp only [missing, List.filter_cons, absent, not_false_eq_true, decide_true, if_true]

theorem missing_cons_of_some {p : Planner} {d : Descriptor} {output : String}
    (found : p.table.entries.get? d.target = some output) (ds : List Descriptor) :
    p.missing (d :: ds) = p.missing ds := by
  have known := (OrderedMap.mem_keys_iff _ _).2 ⟨output, found⟩
  simp only [missing, List.filter_cons, known, not_true_eq_false, decide_false,
    Bool.false_eq_true, if_false]

theorem planEach_cons_of_ok {p : Planner} {d : Descriptor} {events : List Event}
    {u : PlannedUnit} (planned : p.planNamespace d.target = ⟨events, .ok u⟩)
    (ds : List Descriptor) :
    (p.planEach (d :: ds)).events = events ++ (p.planEach ds).events ∧
      (p.planEach (d :: ds)).outcome = (p.planEach ds).outcome.map (u :: ·) := by
  have head : (p.plan d).outcome = .ok u := by rw [plan, planned]
  have reports : (p.plan d).events = events := by rw [plan, planned]
  rw [planEach, Reported.bind_of_ok head, reports]
  cases tail : (p.planEach ds).outcome with
  | error e =>
    rw [Reported.bind_of_error tail]
    exact ⟨rfl, rfl⟩
  | ok us =>
    rw [Reported.bind_of_ok tail]
    exact ⟨by rw [Reported.events_pure, List.append_nil], rfl⟩

theorem planEach_cons_of_error {p : Planner} {d : Descriptor} {events : List Event}
    {e : PlanError} (failed : p.planNamespace d.target = ⟨events, .error e⟩)
    (ds : List Descriptor) : p.planEach (d :: ds) = ⟨events, .error e⟩ := by
  have head : (p.plan d).outcome = .error e := by rw [plan, failed]
  rw [planEach, Reported.bind_of_error head, plan, failed]

theorem planEach_lenient {p : Planner} (lenient : p.table.strict = false)
    (ds : List Descriptor) :
    (p.planEach ds).outcome = .ok (ds.map fun d => p.unitOf d.target) ∧
      warnings (p.planEach ds).events =
        (p.missing ds).map fun d => .unknownNamespace d.target := by
  induction ds with
  | nil => exact ⟨rfl, rfl⟩
  | cons d ds ih =>
    cases found : p.table.entries.get? d.target with
    | none =>
      have step := planEach_cons_of_ok (planNamespace_of_missing found lenient) ds
      rw [step.1, step.2, ih.1, warnings_append, ih.2, missing_cons_of_none found]
      exact ⟨rfl, rfl⟩
    | some output =>
      have step := planEach_cons_of_ok (planNamespace_of_listed found) ds
      rw [step.1, step.2, ih.1, warnings_append, ih.2, missing_cons_of_some found]
      exact ⟨rfl, rfl⟩

/-- A strict run stops at the first schema that is missing and plans like a lenient one before it. -/
theorem planEach_strict {p : Planner} (strict : p.table.strict = true) (ds : List Descriptor) :
    warnings (p.planEach ds).events = [] ∧
      (p.planEach ds).outcome =
        match (p.missing ds).head? with
        | none => .ok (ds.map fun d => p.unitOf d.target)
        | some d => .error (.unknownNamespace d.target) := by
  induction ds with
  | nil => exact ⟨rfl, rfl⟩
  | cons d ds ih =>
    cases found : p.table.entries.get? d.target with
    | none =>
      rw [planEach_cons_of_error (planNamespace_of_missing_strict found strict) ds,
        missing_cons_of_none found]
      exact ⟨rfl, rfl⟩
    | some output =>
      have step := planEach_cons_of_ok (planNamespace_of_listed found) ds
      rw [step.1, step.2, warnings_append, ih.1, ih.2, missing_cons_of_some found]
      refine ⟨rfl, ?_⟩
      cases (p.missing ds).head? with
      | none => rfl
      | some e => rfl

/-- A strict run fails exactly over a schema whose namespace is in no table. -/
theorem planEach_strict_fails_iff {p : Planner} (strict : p.table.strict = true)
    (ds : List Descriptor) :
    (∃ e, (p.planEach ds).outcome = .error e) ↔
      ∃ d ∈ ds, p.table.entries.get? d.target = none := by
  have absent : (∃ d, d ∈ p.missing ds) ↔ ∃ d ∈ ds, p.table.entries.get? d.target = none := by
    simp only [missing, List.mem_filter, decide_eq_true_eq, OrderedMap.get?_eq_none_iff]
  rw [← absent, (planEach_strict strict ds).2]
  cases p.missing ds with
  | nil => simp
  | cons d rest => simp

/-! The two ways of running the same schemas. -/

theorem planAll_ofSchemas_lenient (ds : List Descriptor) (root : String) (optimize : Bool)
    (home : String) :
    (ofSchemas ds root optimize false home).planAll.outcome =
        .ok (ds.map fun d => (ofSchemas ds root optimize false home).unitOf d.target) ∧
      warnings (ofSchemas ds root optimize false home).planAll.events =
        ((ofSchemas ds root optimize false home).missing ds).map
          fun d => .unknownNamespace d.target :=
  planEach_lenient rfl ds

-- both planners miss the same schemas and send a known namespace the same way
theorem planAll_ofSchemas_strict (ds : List Descriptor) (root : String) (optimize : Bool)
    (home : String) :
    warnings (ofSchemas ds root optimize true home).planAll.events = [] ∧
      (ofSchemas ds root optimize true home).planAll.outcome =
        match ((ofSchemas ds root optimize false home).missing ds).head? with
        | none => .ok (ds.map fun d => (ofSchemas ds root optimize false home).unitOf d.target)
        | some d => .error (.unknownNamespace d.target) :=
  planEach_strict rfl ds

/-- The lenient run of the schemas never fails and warns once for every schema that is missing, in
order; the strict run is silent and fails over the first of these warnings, or else agrees. -/
theorem strict_run_exact {ds : List Descriptor} {root : String} {optimize strict : Bool}
    {home : String} {p : Planner}
    (built : (build ds root optimize strict home).outcome = .ok p) :
    ∃ lenient rigid us,
      (build ds root optimize false home).outcome = .ok lenient ∧
      (build ds root optimize true home).outcome = .ok rigid ∧
      (build ds root optimize true home).events = (build ds root optimize false home).events ∧
      rigid.table.entries = lenient.table.entries ∧
      lenient.planAll.outcome = .ok us ∧
      us.map PlannedUnit.xmlNamespace = ds.map (fun d => some d.target) ∧
      warnings lenient.planAll.events =
        (ds.filter fun d => d.target ∉ lenient.table.entries.keys).map
          (fun d => .unknownNamespace d.target) ∧
      warnings rigid.planAll.events = [] ∧
      (∀ uri, rigid.planAll.outcome = .error (.unknownNamespace uri) ↔
        (warnings lenient.planAll.events).head? = some (.unknownNamespace uri)) ∧
      (warnings lenient.planAll.events = [] → rigid.planAll.outcome = .ok us) := by
  obtain ⟨named, single, _⟩ := (outcome_build_eq_ok_iff ds root optimize strict home p).1 built
  have finished := fun s => (outcome_build_eq_ok_iff ds root optimize s home _).2
    ⟨named, single, rfl⟩
  have easy := planAll_ofSchemas_lenient ds root optimize home
  have hard := planAll_ofSchemas_strict ds root optimize home
  refine ⟨_, _, _, finished false, finished true, events_build ds root optimize true home, rfl,
    easy.1, ?_, easy.2, hard.1, ?_, ?_⟩
  · rw [List.map_map]
    rfl
  · intro uri
    rw [easy.2, hard.2, List.head?_map]
    cases ((ofSchemas ds root optimize false home).missing ds).head? with
    | none => simp
    | some d => simp
  · intro silent
    rw [easy.2, List.map_eq_nil_iff] at silent
    rw [hard.2, silent]
    rfl

def partlyKnown : List Descriptor :=
  [⟨"urn:cac", OrderedMap.ofList [("cac", "urn:cac")], some false, none⟩,
   ⟨"urn:x", OrderedMap.empty, some false, none⟩, ⟨"urn:y", OrderedMap.empty, none, none⟩,
   ⟨"urn:x", OrderedMap.empty, some false, none⟩]

theorem partly_known_run_exact :
    ∃ lenient rigid us,
      (build partlyKnown "Ubl" false false).outcome = .ok lenient ∧
      (build partlyKnown "Ubl" false true).outcome = .ok rigid ∧
      lenient.planAll.outcome = .ok us ∧
      us.map PlannedUnit.xmlNamespace =
        [some "urn:cac", some "urn:x", some "urn:y", some "urn:x"] ∧
      warnings lenient.planAll.events =
        [.unknownNamespace "urn:x", .unknownNamespace "urn:y", .unknownNamespace "urn:x"] ∧
      rigid.planAll.outcome = .error (.unknownNamespace "urn:x") := by
  have built := (outcome_build_eq_ok_iff partlyKnown "Ubl" false false defaultHome _).2
    ⟨by decide, by decide +kernel, rfl⟩
  obtain ⟨lenient, rigid, us, easy, hard, _, _, planned, targets, warned, _, first, _⟩ :=
    strict_run_exact built
  cases Except.ok.inj (built.symm.trans easy)
  have known : (partlyKnown.filter fun d => d.target ∉ (ofSchemas partlyKnown "Ubl" false false
      defaultHome).table.entries.keys).map (fun d => Event.unknownNamespace d.target) =
      [.unknownNamespace "urn:x", .unknownNamespace "urn:y", .unknownNamespace "urn:x"] := by
    decide +kernel
  have warnings_eq := warned.trans known
  exact ⟨_, rigid, us, easy, hard, planned, targets, warnings_eq,
    (first "urn:x").2 (by rw [warnings_eq]; rfl)⟩

end Planner

end NamespacePlan
