import Polycalc.Proofs.Evaluation.Guard
import Polycalc.Proofs.Evaluation.Stepwise

/-!
# Live calls are a simple path

Each live call is demanded by the one below it, and the lowest one is a call of
the expression, so the live calls are a path that the program alone determines;
the guard sees to it that no site is on it twice (`Program.LivePath`).  What is
still to be evaluated has calls that may come next on the path, and this is what
a step keeps (`Stepwise.State.Keeps.next`).
-/

namespace Polycalc

namespace Program

/-! ## Paths -/

/-- A call that may come next on a path of calls, innermost first, which begins
in the expression. -/
def ComesNext (program : Program) (root : Expr) : List Call → Call → Prop
  | [], call => call ∈ root.calls
  | below :: _, call => program.Demands below call

/-- Calls, innermost first, each of which may come next after those below it and
has another site than they have. -/
inductive LivePath (program : Program) (root : Expr) : List Call → Prop
  | nil : LivePath program root []
  | cons {calls : List Call} {call : Call} (path : LivePath program root calls)
      (next : program.ComesNext root calls call) (fresh : call.site ∉ calls.map Call.site) :
      LivePath program root (call :: calls)

namespace LivePath

variable {program : Program} {root : Expr} {calls : List Call}

theorem nodup (path : program.LivePath root calls) : (calls.map Call.site).Nodup := by
  induction path with
  | nil => exact List.nodup_nil
  | cons _ _ fresh ih => exact List.nodup_cons.mpr ⟨fresh, ih⟩

/-- Each call is demanded by the one below it. -/
theorem isChain (path : program.LivePath root calls) :
    calls.IsChain fun above below => program.Demands below above := by
  induction path with
  | nil => exact .nil
  | @cons calls _ _ next _ ih =>
      cases calls with
      | nil => exact .singleton _
      | cons below _ => exact .cons_cons next ih

/-- The lowest call is one of the expression. -/
theorem mem_root_of_getLast? (path : program.LivePath root calls) {lowest : Call}
    (isLowest : calls.getLast? = some lowest) : lowest ∈ root.calls := by
  induction path with
  | nil => cases isLowest
  | @cons calls _ _ next _ ih =>
      cases calls with
      | nil =>
          cases isLowest
          exact next
      | cons below rest => exact ih (by rwa [List.getLast?_cons_cons] at isLowest)

end LivePath

/-- What a known call demands is known. -/
theorem Demands.calls_subset {program : Program} {known : List Call}
    (bodies : program.bodyCalls ⊆ known) {call demanded : Call}
    (demands : program.Demands call demanded) (calls : call.toExpr.calls ⊆ known) :
    demanded.toExpr.calls ⊆ known := by
  rcases demands with ⟨argument, given, inArgument⟩ | ⟨callee, found, inBody⟩
  · have inCall := Call.calls_argument_subset given inArgument
    exact List.Subset.trans (Expr.calls_subset_of_mem inCall) calls
  · have below := Expr.calls_subset_of_mem inBody
    exact List.Subset.trans below (List.Subset.trans (calls_body_subset found) bodies)

/-- A path has no more calls than there are sites in the expression and in the
bodies of the functions. -/
theorem LivePath.length_le {program : Program} {root : Expr} {calls : List Call}
    (path : program.LivePath root calls) :
    calls.length ≤ ((root.calls ++ program.bodyCalls).map Call.site).dedup.length := by
  have known : ∀ call ∈ calls, call.toExpr.calls ⊆ root.calls ++ program.bodyCalls := by
    induction path with
    | nil => simp
    | @cons calls call _ next _ ih =>
        rw [List.forall_mem_cons]
        refine ⟨?_, ih⟩
        cases calls with
        | nil =>
            have inRoot := Expr.calls_subset_of_mem next
            exact List.Subset.trans inRoot (List.subset_append_left _ _)
        | cons below _ =>
            exact next.calls_subset (List.subset_append_right _ _) (ih below List.mem_cons_self)
  have included : calls.map Call.site ⊆
      ((root.calls ++ program.bodyCalls).map Call.site).dedup := by
    intro site member
    rcases List.mem_map.mp member with ⟨call, onPath, rfl⟩
    exact List.mem_dedup.mpr (List.mem_map_of_mem (known call onPath call.self_mem_calls))
  have fewer := (List.subperm_of_subset path.nodup included).length_le
  rwa [List.length_map] at fewer

end Program

theorem liveSites_map_toExpr (calls : List Call) :
    liveSites (calls.map Call.toExpr) = calls.map Call.site := by
  induction calls with
  | nil => rfl
  | cons call calls ih => rw [List.map_cons, liveSites_cons, ih, List.map_cons]

namespace Stepwise

open Program

variable {limits : Limits} {program : Program} {root : Expr}

/-! ## What a step keeps -/

/-- All calls of the expression may come next. -/
def MayFollow (program : Program) (root : Expr) (calls : List Call) (expr : Expr) : Prop :=
  ∀ call ∈ expr.calls, program.ComesNext root calls call

/-- The frames belong to these live calls, and the calls of what is left to be
evaluated may come next. -/
inductive FramesHold (program : Program) (root : Expr) : List Frame → List Call → Prop
  | nil : FramesHold program root [] []
  | chain {frames : List Frame} {calls : List Call} {operator : Operator} {values : List Int}
      {rest : List Expr} {binding : Binding} (hold : FramesHold program root frames calls)
      (pending : ∀ expr ∈ rest, MayFollow program root calls expr) :
      FramesHold program root (.several (.chain operator) values rest binding :: frames) calls
  | arguments {frames : List Frame} {calls : List Call} {call : Call} {values : List Int}
      {rest : List Expr} {binding : Binding} (hold : FramesHold program root frames calls)
      (pending : ∀ expr ∈ rest, MayFollow program root (call :: calls) expr) :
      FramesHold program root (.several (.call call) values rest binding :: frames)
        (call :: calls)
  | body {frames : List Frame} {calls : List Call} {call : Call}
      (hold : FramesHold program root frames calls) :
      FramesHold program root (.body call :: frames) (call :: calls)

/-- The live calls are a path, and so they will be. -/
structure State.Keeps (program : Program) (root : Expr) (state : State) (calls : List Call) :
    Prop where
  live : state.machine.live = calls.map Call.toExpr
  path : program.LivePath root calls
  frames : FramesHold program root state.frames calls
  pending : ∀ expr binding, state.control = .evaluate expr binding →
    MayFollow program root calls expr

namespace State.Keeps

variable {state state' : State} {calls : List Call} {machine : Machine} {frames : List Frame}

theorem start (expr : Expr) (binding : Binding) :
    (State.start expr binding).Keeps program expr [] where
  live := rfl
  path := .nil
  frames := .nil
  pending := by
    rintro _ _ ⟨rfl, rfl⟩ call member
    exact member

/-- Nothing new is evaluated after a value or a failure. -/
theorem ended {control : Control} (live : machine.live = calls.map Call.toExpr)
    (path : program.LivePath root calls) (hold : FramesHold program root frames calls)
    (noExpr : ∀ expr binding, control ≠ .evaluate expr binding) :
    State.Keeps program root ⟨control, machine, frames⟩ calls where
  live := live
  path := path
  frames := hold
  pending := fun expr binding same => absurd same (noExpr expr binding)

/-- The body of a function has calls that the call of the function demands. -/
theorem enterBody {call : Call} (live : machine.live = (call :: calls).map Call.toExpr)
    (path : program.LivePath root (call :: calls)) (hold : FramesHold program root frames calls)
    (values : List Int) :
    (enterBody limits program call values machine frames).Keeps program root (call :: calls) := by
  unfold Stepwise.enterBody
  split
  · exact ended live path (.body hold) (by simp)
  · rename_i callee found
    split
    · exact ended live path (.body hold) (by simp)
    · split
      · refine ⟨live, path, .body hold, ?_⟩
        rintro _ _ ⟨rfl, rfl⟩ demanded inBody
        exact Or.inr ⟨callee, found, inBody⟩
      · exact ended live path (.body hold) (by simp)

/-- Going on with several expressions keeps the path. -/
theorem proceed {purpose : Purpose} {values : List Int} {rest : List Expr} {binding : Binding}
    (live : machine.live = calls.map Call.toExpr) (path : program.LivePath root calls)
    (hold : FramesHold program root (.several purpose values rest binding :: frames) calls)
    (values' : List Int) :
    (proceed limits program purpose values' binding machine frames rest).Keeps program root
      calls := by
  cases rest with
  | nil =>
      cases hold with
      | chain hold _ => exact ended live path hold (by simp)
      | arguments hold _ => exact enterBody live path hold values'
  | cons expr rest =>
      have parts : MayFollow program root calls expr ∧
          FramesHold program root (.several purpose values' rest binding :: frames) calls := by
        cases hold with
        | chain hold pending =>
            rw [List.forall_mem_cons] at pending
            exact ⟨pending.1, .chain hold pending.2⟩
        | arguments hold pending =>
            rw [List.forall_mem_cons] at pending
            exact ⟨pending.1, .arguments hold pending.2⟩
      refine ⟨live, path, parts.2, ?_⟩
      rintro _ _ ⟨rfl, rfl⟩
      exact parts.1

/-- Beginning an expression keeps the path: the guard lets a call on it only if
its site is not there. -/
theorem begin {expr : Expr} (live : machine.live = calls.map Call.toExpr)
    (path : program.LivePath root calls) (hold : FramesHold program root frames calls)
    (follows : MayFollow program root calls expr) (binding : Binding) :
    ∃ calls', (begin limits program binding machine frames expr).Keeps program root calls' := by
  cases expr with
  | number value position => exact ⟨calls, ended live path hold (by simp)⟩
  | parameter name position =>
      simp only [Stepwise.begin]
      split
      · exact ⟨calls, ended live path hold (by simp)⟩
      · exact ⟨calls, ended live path hold (by simp)⟩
  | call site name arguments position =>
      simp only [Stepwise.begin]
      split
      · exact ⟨calls, ended live path hold (by simp)⟩
      · rename_i notLive
        let call : Call := ⟨site, name, arguments, position⟩
        have fresh : call.site ∉ calls.map Call.site := by
          rw [Bool.not_eq_true, isLive_eq_false_iff, live, liveSites_map_toExpr] at notLive
          exact notLive
        have pending : ∀ argument ∈ arguments,
            MayFollow program root (call :: calls) argument :=
          fun argument given demanded inArgument => Or.inl ⟨argument, given, inArgument⟩
        have path' : program.LivePath root (call :: calls) :=
          .cons path (follows call call.self_mem_calls) fresh
        have live' : (machine.push call).live = (call :: calls).map Call.toExpr := by
          rw [Machine.live_push, live, List.map_cons]
        have hold' : FramesHold program root (.several (.call call) [] arguments binding :: frames)
            (call :: calls) := .arguments hold pending
        exact ⟨call :: calls, proceed live' path' hold' []⟩
  | binary operator left right position =>
      have pending : ∀ operand ∈ (Expr.binary operator left right position).operands,
          MayFollow program root calls operand :=
        fun operand member call inOperand =>
          follows call (Expr.calls_operands_subset member inOperand)
      have hold' : FramesHold program root (.several (.chain operator) [] _ binding :: frames)
          calls := .chain hold pending
      exact ⟨calls, proceed live path hold' []⟩
  | foreign kind shown => exact ⟨calls, ended live path hold (by simp)⟩

/-- When a call is taken off, the path below it is left. -/
theorem pop {control : Control} {call : Call}
    (live : machine.live = (call :: calls).map Call.toExpr)
    (path : program.LivePath root (call :: calls)) (hold : FramesHold program root frames calls)
    (noExpr : ∀ expr binding, control ≠ .evaluate expr binding) :
    State.Keeps program root ⟨control, machine.pop, frames⟩ calls := by
  cases path with
  | cons path _ _ => exact ended (by rw [Machine.live_pop, live]; rfl) path hold noExpr

/-- A step leads to another path. -/
theorem next (keeps : state.Keeps program root calls)
    (stepped : next limits program state = some state') :
    ∃ calls', state'.Keeps program root calls' := by
  rcases state with ⟨control, machine, frames⟩
  rcases keeps with ⟨live, path, hold, pending⟩
  cases control with
  | evaluate expr binding =>
      cases stepped
      exact begin live path hold (pending expr binding rfl) binding
  | returned value =>
      cases frames with
      | nil => cases stepped
      | cons frame frames =>
          cases frame with
          | several purpose values rest binding =>
              cases stepped
              exact ⟨calls, proceed live path hold _⟩
          | body call =>
              cases hold with
              | @body _ calls _ hold =>
                  cases stepped
                  unfold leaveBody
                  split
                  · exact ⟨call :: calls, ended live path (.body hold) (by simp)⟩
                  · exact ⟨calls, pop live path hold (by simp)⟩
  | failed failure =>
      cases frames with
      | nil => cases stepped
      | cons frame frames =>
          cases stepped
          cases hold with
          | chain hold _ => exact ⟨calls, ended live path hold (by simp)⟩
          | arguments hold _ => exact ⟨_, pop live path hold (by simp)⟩
          | body hold => exact ⟨_, pop live path hold (by simp)⟩

/-- All states that are reached have a path. -/
theorem reaches (keeps : state.Keeps program root calls)
    (reached : Reaches limits program state state') :
    ∃ calls', state'.Keeps program root calls' := by
  induction reached with
  | refl => exact ⟨calls, keeps⟩
  | tail _ stepped ih =>
      rcases ih with ⟨calls', keeps'⟩
      exact keeps'.next stepped

end State.Keeps

end Stepwise

/-! ## Evaluations -/

namespace Program

open Stepwise

/-- A budget that covers all sites lets the evaluator and the single steps end
alike. -/
theorem exists_reaches_of_budget (limits : Limits) {program : Program} (binding : Binding)
    (expr : Expr) {budget : Nat}
    (enough : ((expr.calls ++ program.bodyCalls).map Call.site).dedup.length ≤ budget) :
    ∃ result steps,
      (expr.evaluateWith (program.evaluateCall limits budget) binding).onNewMachine =
          (result, ⟨[], steps⟩) ∧
        Reaches limits program (.start expr binding) ⟨.ofResult result, ⟨[], steps⟩, []⟩ := by
  rcases exists_run limits program budget [] binding expr with ⟨result, steps, runs⟩
  have room : HasRoom (expr.calls ++ program.bodyCalls) budget [] :=
    ⟨List.nodup_nil, List.nil_subset _, enough⟩
  have roomy := runs.ne_tooManyLiveCalls (List.subset_append_right _ _) room
    (List.subset_append_left _ _)
  have nothingLive : Machine.live {} = [] := rfl
  exact ⟨result, #[] ++ steps.toArray, runs.ends #[], runs.reaches roomy nothingLive []⟩

/-- Every evaluation ends, with what the evaluator gives if as many calls may be
live as there are sites.  All the way from its beginning to its end the live
calls have different sites, so they are not more than there are; each of them
stands in an argument of the one right below it or in the body of the function
that this one names, and the lowest stands in the expression. -/
theorem live_calls_on_simple_path (limits : Limits) (program : Program) (binding : Binding)
    (expr : Expr) :
    Terminates limits program (.start expr binding) ∧
      (∃ result steps,
        Reaches limits program (.start expr binding) ⟨.ofResult result, ⟨[], steps⟩, []⟩ ∧
          (((expr.calls ++ program.bodyCalls).map Call.site).dedup.length ≤ limits.liveCalls →
            (program.evaluate limits binding expr).onNewMachine = (result, ⟨[], steps⟩))) ∧
      ∀ state, Reaches limits program (.start expr binding) state →
        ∃ calls : List Call, state.machine.live = calls.map Call.toExpr ∧
          (calls.map Call.site).Nodup ∧
          calls.length ≤ ((expr.calls ++ program.bodyCalls).map Call.site).dedup.length ∧
          (calls.IsChain fun above below =>
            (∃ argument ∈ below.arguments, above ∈ argument.calls) ∨
              ∃ callee, program.find? below.name = some callee ∧ above ∈ callee.body.calls) ∧
          ∀ lowest, calls.getLast? = some lowest → lowest ∈ expr.calls := by
  let sites := ((expr.calls ++ program.bodyCalls).map Call.site).dedup.length
  have enough : sites ≤ max sites limits.liveCalls := Nat.le_max_left _ _
  obtain ⟨result, steps, ends, reached⟩ :=
    exists_reaches_of_budget limits binding expr enough
  refine ⟨?_, ⟨result, steps, reached, ?_⟩, ?_⟩
  · apply reached.terminates
    cases result <;> rfl
  · intro ample
    rwa [Nat.max_eq_right ample] at ends
  · intro state reachedState
    rcases (State.Keeps.start expr binding).reaches reachedState with ⟨calls, keeps⟩
    exact ⟨calls, keeps.live, keeps.path.nodup, keeps.path.length_le, keeps.path.isChain,
      fun lowest => keeps.path.mem_root_of_getLast?⟩

end Program

end Polycalc
