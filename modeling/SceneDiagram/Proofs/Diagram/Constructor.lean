import Mathlib.Data.List.SplitBy
import SceneDiagram.Facet

/-!
# Lines of constructors

The parameters of all constructors are listed in one row, and the lines of a diagram are found again
in that row by the lines of the source. So constructors that stand next to each other and share a
line of the source are written as one, with the parameters of all of them (`lines_of_runs`). There
is one line for each constructor if no two neighbours share a line of the source, and only then
(`constructor_lines`).
-/

namespace SceneDiagram

namespace DiagramContext

variable (ctx : DiagramContext)

/-- A parameter as it is written: its type, linked to the entity that it means, and its name. -/
def parameterEntry (p : Parameter) : String :=
  match ctx.index.resolve? p.typeName with
  | some target => "[[" ++ ctx.ownLink target ++ " " ++ p.typeName ++ "]] " ++ p.name
  | none => p.typeName ++ " " ++ p.name

/-- A constructor of a type as it is written: the line that declares it, and its parameters. -/
def constructorEntry (link typeName : String) (line : Nat) (ps : List Parameter) : String :=
  "[[" ++ link ++ ":" ++ toString line ++ " " ++ typeName ++ "]](" ++
    String.intercalate ", " (ps.map ctx.parameterEntry) ++ ")"

end DiagramContext

namespace Facet

variable {ctx : DiagramContext} {e : Entity} {d : Declaration} {cs : List ParameterList}
  {runs : List (Nat × List ParameterList)}

/-- Constructors in runs of neighbours that share a line of the source, each with that line. -/
structure Runs (cs : List ParameterList) (runs : List (Nat × List ParameterList)) : Prop where
  joined : runs.flatMap (·.2) = cs
  nonempty : ∀ run ∈ runs, run.2 ≠ []
  shared : ∀ run ∈ runs, ∀ c ∈ run.2, c.line = run.1
  /-- Runs that follow each other stand at different lines. -/
  apart : runs.IsChain (·.1 ≠ ·.1)

/-- A constructor is added to the first run or starts one of its own. -/
theorem Runs.exists_cons (c : ParameterList) (h : Runs cs runs) : ∃ more, Runs (c :: cs) more := by
  have hown : ∀ x ∈ [c], x.line = c.line := fun x hx => by rw [List.mem_singleton.mp hx]
  rcases runs with _ | ⟨⟨line, run⟩, rest⟩
  · refine ⟨[(c.line, [c])], ?_, by simp, by simp, by simp⟩
    rw [← h.joined]
    rfl
  by_cases hline : c.line = line
  · refine ⟨(line, c :: run) :: rest, ?_, ?_, ?_, ?_⟩
    · rw [← h.joined]
      rfl
    · rw [List.forall_mem_cons]
      exact ⟨List.cons_ne_nil _ _, fun r hr => h.nonempty r (List.mem_cons_of_mem _ hr)⟩
    · rw [List.forall_mem_cons]
      refine ⟨?_, fun r hr => h.shared r (List.mem_cons_of_mem _ hr)⟩
      rw [List.forall_mem_cons]
      exact ⟨hline, h.shared _ List.mem_cons_self⟩
    · rw [List.isChain_cons]
      exact List.isChain_cons.mp h.apart
  · refine ⟨(c.line, [c]) :: (line, run) :: rest, ?_, ?_, ?_, ?_⟩
    · rw [← h.joined]
      rfl
    · rw [List.forall_mem_cons]
      exact ⟨List.cons_ne_nil _ _, h.nonempty⟩
    · rw [List.forall_mem_cons]
      exact ⟨hown, h.shared⟩
    · rw [List.isChain_cons_cons]
      exact ⟨hline, h.apart⟩

theorem exists_runs (cs : List ParameterList) : ∃ runs, Runs cs runs := by
  induction cs with
  | nil => exact ⟨[], rfl, by simp, by simp, .nil⟩
  | cons c cs ih =>
    obtain ⟨runs, hruns⟩ := ih
    exact hruns.exists_cons c

/-- Every constructor is a run if no two neighbours share a line. -/
theorem runs_singletons (h : cs.IsChain (·.line ≠ ·.line)) :
    Runs cs (cs.map fun c => (c.line, [c])) where
  joined := by simp [List.flatMap_map]
  nonempty := by simp
  shared := by simp
  apart := by rwa [List.isChain_map]

/-- No more constructors than runs leave one for each run. -/
theorem singletons_of_length (hne : ∀ run ∈ runs, run.2 ≠ []) :
    runs.length ≤ (runs.flatMap (·.2)).length ∧
      ((runs.flatMap (·.2)).length ≤ runs.length → ∀ run ∈ runs, ∃ c, run.2 = [c]) := by
  induction runs with
  | nil => exact ⟨Nat.le_refl _, fun _ _ hrun => absurd hrun List.not_mem_nil⟩
  | cons run runs ih =>
    obtain ⟨hle, hones⟩ := ih fun r hr => hne r (List.mem_cons_of_mem _ hr)
    have hpos := List.length_pos_of_ne_nil (hne run List.mem_cons_self)
    simp only [List.flatMap_cons, List.length_append, List.length_cons]
    refine ⟨by omega, fun hfew => ?_⟩
    rw [List.forall_mem_cons]
    exact ⟨List.length_eq_one_iff.mp (by omega), hones (by omega)⟩

theorem Runs.isChain_of_length (h : Runs cs runs) (hlength : cs.length ≤ runs.length) :
    cs.IsChain (·.line ≠ ·.line) := by
  have hones := (singletons_of_length h.nonempty).2 (h.joined ▸ hlength)
  have hruns : cs.map (fun c => (c.line, [c])) = runs := by
    rw [← h.joined, List.map_flatMap]
    conv_rhs => rw [← List.flatMap_singleton' runs]
    refine List.flatMap_congr fun run hrun => ?_
    obtain ⟨c, hc⟩ := hones run hrun
    have hline := h.shared run hrun c (hc ▸ List.mem_singleton_self c)
    rw [hc, List.map_singleton, hline, ← hc]
  have happart := h.apart
  rwa [← hruns, List.isChain_map] at happart

/-! ## Items and lines -/

theorem parameterItems_ne_nil (c : ParameterList) : parameterItems ctx c ≠ [] := by
  unfold parameterItems
  split
  · exact List.cons_ne_nil _ _
  · next h => simpa using h

theorem line_of_mem_parameterItems {c : ParameterList} {item : FacetItem}
    (h : item ∈ parameterItems ctx c) : item.line = c.line := by
  unfold parameterItems at h
  split at h
  · rw [List.mem_singleton.mp h]
  · obtain ⟨p, -, rfl⟩ := List.mem_map.mp h
    rfl

/-- The items of a constructor are written as its parameters, and none is written if it has none. -/
theorem filterMap_parameterText (ctx : DiagramContext) (c : ParameterList) :
    (parameterItems ctx c).filterMap ctx.parameterText = c.parameters.map ctx.parameterEntry := by
  unfold parameterItems
  split
  · next h =>
    rw [List.isEmpty_iff.mp h]
    rfl
  · rw [List.filterMap_map, ← List.filterMap_eq_map]
    refine List.filterMap_congr fun p _ => ?_
    cases h : ctx.index.resolve? p.typeName <;>
      simp only [Function.comp_apply, DiagramContext.parameterText, DiagramContext.parameterEntry,
        Option.map_some, h]

/-- The line of the items of a run names the line that they share. -/
theorem constructorLine_of_run (ctx : DiagramContext) (link typeName : String)
    {run : Nat × List ParameterList} (hne : run.2 ≠ []) (hshared : ∀ c ∈ run.2, c.line = run.1) :
    ctx.constructorLine link typeName (run.2.flatMap (parameterItems ctx)) =
      ctx.constructorEntry link typeName run.1 (run.2.flatMap (·.parameters)) := by
  have htext : (run.2.flatMap (parameterItems ctx)).filterMap ctx.parameterText =
      (run.2.flatMap (·.parameters)).map ctx.parameterEntry := by
    rw [List.filterMap_flatMap, List.map_flatMap]
    exact List.flatMap_congr fun c _ => filterMap_parameterText ctx c
  cases hitems : run.2.flatMap (parameterItems ctx) with
  | nil =>
    obtain ⟨c, hc⟩ := List.exists_mem_of_ne_nil _ hne
    exact absurd (List.flatMap_eq_nil_iff.mp hitems c hc) (parameterItems_ne_nil c)
  | cons first rest =>
    have hfirst : first ∈ run.2.flatMap (parameterItems ctx) := hitems ▸ List.mem_cons_self
    obtain ⟨c, hc, hitem⟩ := List.mem_flatMap.mp hfirst
    rw [DiagramContext.constructorLine, ← hitems, htext, line_of_mem_parameterItems hitem,
      hshared c hc, DiagramContext.constructorEntry]

/-- The items of constructors are split into lines just where a run ends. -/
theorem Runs.splitBy_items (h : Runs cs runs) :
    (cs.flatMap (parameterItems ctx)).splitBy (fun a b => a.line == b.line) =
      runs.map fun run => run.2.flatMap (parameterItems ctx) := by
  have hline : ∀ run ∈ runs, ∀ item ∈ run.2.flatMap (parameterItems ctx), item.line = run.1 := by
    intro run hrun item hitem
    obtain ⟨c, hc, hitem⟩ := List.mem_flatMap.mp hitem
    rw [line_of_mem_parameterItems hitem, h.shared run hrun c hc]
  have hne : ∀ run ∈ runs, run.2.flatMap (parameterItems ctx) ≠ [] := by
    intro run hrun hnil
    obtain ⟨c, hc⟩ := List.exists_mem_of_ne_nil _ (h.nonempty run hrun)
    exact parameterItems_ne_nil c (List.flatMap_eq_nil_iff.mp hnil c hc)
  rw [← h.joined, List.flatMap_assoc, List.flatMap_def]
  refine List.splitBy_flatten ?_ ?_ ?_
  · intro hmem
    obtain ⟨run, hrun, hnil⟩ := List.mem_map.mp hmem
    exact hne run hrun hnil
  · intro items hmem
    obtain ⟨run, hrun, rfl⟩ := List.mem_map.mp hmem
    refine List.Pairwise.isChain (List.pairwise_of_forall_mem_list fun a ha b hb => ?_)
    rw [hline run hrun a ha, hline run hrun b hb, BEq.rfl]
  · rw [List.isChain_map]
    refine h.apart.imp_of_mem_imp fun run next hrun hnext hapart =>
      ⟨hne run hrun, hne next hnext, ?_⟩
    rw [hline run hrun _ (List.getLast_mem _), hline next hnext _ (List.head_mem _)]
    exact beq_eq_false_iff_ne.mpr hapart

/-- Every run of constructors is written as one line. -/
theorem lines_of_runs (hd : e.declaration = some d) (h : Runs d.allConstructors runs) :
    constructors.lines ctx e (constructors.items ctx e) = runs.map fun run =>
      ctx.constructorEntry (ctx.ownLink e) d.name run.1 (run.2.flatMap (·.parameters)) := by
  have hitems : constructors.items ctx e = d.allConstructors.flatMap (parameterItems ctx) := by
    simp only [items, ofDeclaration, hd, Option.map_some, Option.getD_some, constructorItems]
  have hname : (e.declaration.map (·.name)).getD "" = d.name := by rw [hd]; rfl
  rw [hitems, lines, h.splitBy_items, List.map_map, hname]
  exact List.map_congr_left fun run hrun =>
    constructorLine_of_run ctx _ _ (h.nonempty run hrun) (h.shared run hrun)

/-- The lines of the constructors of an entity: one for each run of neighbours that share a line of
the source, which links to that line and lists the parameters of all of them in their order. So
there are as many lines as constructors just if no two neighbours share a line of the source; then
each constructor has a line of its own, the primary one first. -/
theorem constructor_lines (ctx : DiagramContext) {e : Entity} {d : Declaration}
    (hd : e.declaration = some d) :
    let all := d.primaryConstructor.toList ++ d.constructors
    let written := constructors.lines ctx e (constructors.items ctx e)
    let entry := ctx.constructorEntry (ctx.ownLink e) d.name
    (∃ runs, Runs all runs ∧
      written = runs.map fun run => entry run.1 (run.2.flatMap (·.parameters))) ∧
    (written.length = all.length ↔ all.IsChain (·.line ≠ ·.line)) ∧
    (all.IsChain (·.line ≠ ·.line) → written = all.map fun c => entry c.line c.parameters) := by
  intro all written entry
  have hlines {runs} (h : Runs all runs) : written =
      runs.map fun run => entry run.1 (run.2.flatMap (·.parameters)) := lines_of_runs hd h
  have halone (h : all.IsChain (·.line ≠ ·.line)) :
      written = all.map fun c => entry c.line c.parameters := by
    rw [hlines (runs_singletons h), List.map_map]
    exact List.map_congr_left fun c _ => congrArg (entry c.line) (List.append_nil _)
  obtain ⟨runs, hruns⟩ := exists_runs all
  refine ⟨⟨runs, hruns, hlines hruns⟩, ⟨fun hlength => ?_, fun h => ?_⟩, halone⟩
  · refine hruns.isChain_of_length ?_
    rw [← hlength, hlines hruns, List.length_map]
  · rw [halone h, List.length_map]

/-! ## A record with two constructors -/

namespace Game

def map : Entity := ⟨.file "src/Map.cs", none, none, none⟩

/-- A record whose second constructor has no parameters and stands at some line. -/
def record (line : Nat) : Declaration := ⟨"Game", .recordType, "src/Game.cs", 3, [], [],
  some ⟨3, [⟨"map", "IMap", 3⟩, ⟨"seed", "int", 3⟩]⟩, [⟨line, []⟩]⟩

def game (line : Nat) : Entity := ⟨.file "src/Game.cs", some (record line), none, none⟩

/-- The map has another name than the game, whatever the record is. -/
theorem map_new (line : Nat) :
    ((EntityIndex.empty 'I').insert (game line) rfl).position? map.name = none := by
  have hname : map.name ≠ Text.Path.stem "src/Game.cs" := by decide +kernel
  exact Keyed.lookup_put.trans (if_neg hname)

def context (line : Nat) : DiagramContext :=
  ⟨((EntityIndex.empty 'I').insert (game line) rfl).insert map (map_new line), .empty, .standard,
    ⟨false, false, false⟩, .relative 0⟩

end Game

/-- The constructors stand at different lines. -/
theorem constructor_lines_game :
    (Game.game 9).declaration = some (Game.record 9) ∧
      (Game.record 9).allConstructors.IsChain (·.line ≠ ·.line) ∧
      constructors.lines (Game.context 9) (Game.game 9)
          (constructors.items (Game.context 9) (Game.game 9)) =
        ["[[src/Game.cs:3 Game]]([[src/Map.cs IMap]] map, int seed)",
          "[[src/Game.cs:9 Game]]()"] := by
  have hlines : (Game.record 9).allConstructors.IsChain (·.line ≠ ·.line) := by decide
  obtain ⟨-, -, halone⟩ := constructor_lines (Game.context 9) (e := Game.game 9) rfl
  exact ⟨rfl, hlines, (halone hlines).trans (by decide)⟩

/-- Both constructors stand at one line: the one without parameters is not written. -/
theorem constructors_share_line :
    (Game.game 3).declaration = some (Game.record 3) ∧
      (Game.record 3).allConstructors.length = 2 ∧
      constructors.lines (Game.context 3) (Game.game 3)
          (constructors.items (Game.context 3) (Game.game 3)) =
        ["[[src/Game.cs:3 Game]]([[src/Map.cs IMap]] map, int seed)"] := by
  decide

end Facet

end SceneDiagram
