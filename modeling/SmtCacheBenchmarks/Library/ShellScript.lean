import Mathlib.Logic.Function.Basic

/-!
# Shell Scripts that Set Variables and Start Programs

A script of assignments, function definitions and calls of functions that start one
program each.  A file that is sourced runs in the same shell, so it is spliced into the
script.  What counts of a run is the list of command lines that it starts.

- `exec`: the command lines of a script, and the variables and functions it leaves behind
- `expand_pull`: the value of a word behind a script is the value of another word before it
- `commands_eq_lines`: so the command lines can be written down in terms of the variables
  before the script
- `commands_congr`: a script whose command lines have no variable left starts the same
  commands from every state
-/

namespace SmtCacheBenchmarks.Library.ShellScript

universe u v w

/-- A part of a word; a hole is a text of the script that is not fixed here. -/
inductive Part (V : Type u) (K : Type w) where
  | lit (text : List Char)
  | var (x : V)
  | hole (k : K)
deriving DecidableEq

/-- A word: its parts stand next to each other. -/
abbrev Word (V : Type u) (K : Type w) := List (Part V K)

/-- A command; the body of a function is the command line of a program. -/
inductive Cmd (V : Type u) (F : Type v) (K : Type w) where
  /-- `x=w` -/
  | assign (x : V) (w : Word V K)
  /-- `x+=w` -/
  | append (x : V) (w : Word V K)
  /-- `function f { … }` -/
  | define (f : F) (body : List (Word V K))
  /-- `x=w f` -/
  | call (x : V) (w : Word V K) (f : F)

/-- The variables and the functions of a shell. -/
structure State (V : Type u) (F : Type v) (K : Type w) where
  vars : V → List Char
  funs : F → Option (List (Word V K))

variable {V : Type u} {F : Type v} {K : Type w} (holes : K → List Char)

/-! ## Execution -/

/-- The text of a part. -/
def Part.text (vars : V → List Char) : Part V K → List Char
  | .lit text => text
  | .var x => vars x
  | .hole k => holes k

/-- The text of a word. -/
def expand (vars : V → List Char) (w : Word V K) : List Char := w.flatMap (Part.text holes vars)

/-- The texts of a command line. -/
abbrev expandAll (vars : V → List Char) (ws : List (Word V K)) : List (List Char) :=
  ws.map (expand holes vars)

theorem expand_append (vars : V → List Char) (v w : Word V K) :
    expand holes vars (v ++ w) = expand holes vars v ++ expand holes vars w :=
  List.flatMap_append

variable [DecidableEq V] [DecidableEq F]

/-- One command: the command line that it starts, if it starts one, and the state that it
leaves behind.  The variable of a call is set for the call only. -/
def Cmd.exec (s : State V F K) : Cmd V F K → List (List (List Char)) × State V F K
  | .assign x w => ([], { s with vars := Function.update s.vars x (expand holes s.vars w) })
  | .append x w =>
      ([], { s with vars := Function.update s.vars x (s.vars x ++ expand holes s.vars w) })
  | .define f body => ([], { s with funs := Function.update s.funs f (some body) })
  | .call x w f =>
      match s.funs f with
      -- an unknown command starts nothing, and the script goes on
      | none => ([], s)
      | some body =>
          ([expandAll holes (Function.update s.vars x (expand holes s.vars w)) body], s)

/-- A script. -/
def exec (s : State V F K) : List (Cmd V F K) → List (List (List Char)) × State V F K
  | [] => ([], s)
  | c :: cs =>
      let r := c.exec holes s
      let r' := exec r.2 cs
      (r.1 ++ r'.1, r'.2)

/-- The command lines that a script starts. -/
def commands (s : State V F K) (cs : List (Cmd V F K)) : List (List (List Char)) :=
  (exec holes s cs).1

/-- The second part of a script runs in the state that the first one leaves behind. -/
theorem commands_append (s : State V F K) (cs ds : List (Cmd V F K)) :
    commands holes s (cs ++ ds) =
      commands holes s cs ++ commands holes (exec holes s cs).2 ds := by
  unfold commands
  induction cs generalizing s with
  | nil => rfl
  | cons c cs ih =>
      simp only [List.cons_append, exec]
      rw [ih, List.append_assoc]

/-! ## Words before and behind a command -/

/-- A word in place of a variable. -/
def subst (x : V) (w : Word V K) (v : Word V K) : Word V K :=
  v.flatMap fun
    | .lit text => [.lit text]
    | .var y => if y = x then w else [.var y]
    | .hole k => [.hole k]

theorem expand_subst (vars : V → List Char) (x : V) (w v : Word V K) :
    expand holes vars (subst x w v) =
      expand holes (Function.update vars x (expand holes vars w)) v := by
  induction v with
  | nil => rfl
  | cons p v ih =>
      have hsplit : subst x w (p :: v) = subst x w [p] ++ subst x w v := by
        simp [subst]
      have hcons : ∀ vars' : V → List Char,
          expand holes vars' (p :: v) = p.text holes vars' ++ expand holes vars' v :=
        fun vars' => rfl
      rw [hsplit, expand_append, ih, hcons]
      congr 1
      cases p with
      | lit text => simp [subst, expand, Part.text]
      | hole k => simp [subst, expand, Part.text]
      | var y =>
          by_cases hy : y = x
          · simp [subst, hy, expand, Part.text]
          · simp [subst, hy, expand, Part.text]

/-- The word that has the value before a command that `w` has behind it. -/
def Cmd.pull : Cmd V F K → Word V K → Word V K
  | .assign x w => subst x w
  | .append x w => subst x (.var x :: w)
  | .define _ _ => id
  | .call _ _ _ => id

/-- **Substitution rule**: the value of a word behind a command. -/
theorem expand_pull (s : State V F K) (c : Cmd V F K) (w : Word V K) :
    expand holes (c.exec holes s).2.vars w = expand holes s.vars (c.pull w) := by
  cases c with
  | assign x v => exact (expand_subst holes s.vars x v w).symm
  | append x v =>
      rw [Cmd.pull, expand_subst]
      rfl
  | define f body => rfl
  | call x v f =>
      simp only [Cmd.exec, Cmd.pull, id]
      cases s.funs f <;> rfl

/-! ## Command lines in terms of the variables before a script -/

/-- The command lines of a script, as words over the variables before it; `none` when it
calls a function that neither `known` nor the script itself defines. -/
def lines : (F → Option (List (Word V K))) → List (Cmd V F K) → Option (List (List (Word V K)))
  | _, [] => some []
  | known, .call x w f :: cs =>
      match known f, lines known cs with
      | some body, some ls => some (body.map (subst x w) :: ls)
      | _, _ => none
  | known, .define f body :: cs => lines (Function.update known f (some body)) cs
  | known, .assign x w :: cs => (lines known cs).map (List.map (List.map (subst x w)))
  | known, .append x w :: cs => (lines known cs).map (List.map (List.map (subst x (.var x :: w))))

/-- The lines of a script, pulled back over its first command. -/
private theorem map_expandAll_pull (s : State V F K) (c : Cmd V F K)
    (ls : List (List (Word V K))) :
    ls.map (expandAll holes (c.exec holes s).2.vars) =
      (ls.map (List.map c.pull)).map (expandAll holes s.vars) := by
  rw [List.map_map]
  apply List.map_congr_left
  intro l _
  simp only [Function.comp_def, List.map_map]
  exact List.map_congr_left fun w _ => expand_pull holes s c w

/-- **The command lines of a script**: they are the words of `lines`, with the values of the
variables before the script. -/
theorem commands_eq_lines {known : F → Option (List (Word V K))} {s : State V F K}
    (hknown : ∀ f body, known f = some body → s.funs f = some body) {cs : List (Cmd V F K)}
    {ls : List (List (Word V K))} (hlines : lines known cs = some ls) :
    commands holes s cs = ls.map (expandAll holes s.vars) := by
  induction cs generalizing known s ls with
  | nil =>
      obtain rfl := Option.some.inj hlines
      rfl
  | cons c cs ih =>
      have hcons : commands holes s (c :: cs) =
          (c.exec holes s).1 ++ commands holes (c.exec holes s).2 cs := rfl
      rw [hcons]
      cases c with
      | assign x w =>
          obtain ⟨ls, hls, rfl⟩ := Option.map_eq_some_iff.mp hlines
          rw [ih (s := ((Cmd.assign x w).exec holes s).2) hknown hls, map_expandAll_pull]
          rfl
      | append x w =>
          obtain ⟨ls, hls, rfl⟩ := Option.map_eq_some_iff.mp hlines
          rw [ih (s := ((Cmd.append x w).exec holes s).2) hknown hls, map_expandAll_pull]
          rfl
      | define f body =>
          refine ih (s := ((Cmd.define f body).exec holes s).2) ?_ hlines
          intro g body' hg
          by_cases hfg : g = f
          · subst hfg
            rw [Function.update_self] at hg
            simp [Cmd.exec, hg]
          · rw [Function.update_of_ne hfg] at hg
            simp [Cmd.exec, hfg, hknown g body' hg]
      | call x w f =>
          rw [lines] at hlines
          split at hlines
          next body ls hbody hls =>
            obtain rfl := Option.some.inj hlines
            have hexec : (Cmd.call x w f).exec holes s =
                ([expandAll holes (Function.update s.vars x (expand holes s.vars w)) body], s) := by
              simp only [Cmd.exec, hknown f body hbody]
            rw [hexec, ih hknown hls, List.map_cons, expandAll, expandAll, List.map_map]
            refine congrArg (· :: _) (List.map_congr_left fun v _ => ?_)
            exact (expand_subst holes s.vars x w v).symm
          next => cases hlines

/-! ## Scripts that depend on few variables -/

/-- The variables in a word are among the given ones. -/
def Word.uses (used : V → Bool) (w : Word V K) : Bool :=
  w.all fun
    | .var x => used x
    | _ => true

omit [DecidableEq V] in
theorem expand_congr {used : V → Bool} {vars vars' : V → List Char}
    (h : ∀ x, used x = true → vars x = vars' x) {w : Word V K} (hw : Word.uses used w = true) :
    expand holes vars w = expand holes vars' w := by
  have hparts : w.map (Part.text holes vars) = w.map (Part.text holes vars') := by
    apply List.map_congr_left
    intro p hp
    have hused := List.all_eq_true.mp hw p hp
    cases p with
    | lit text => rfl
    | hole k => rfl
    | var x => exact h x hused
  rw [expand, expand, List.flatMap_def, List.flatMap_def, hparts]

/-- The command lines of a script that defines what it calls are made of the given
variables only. -/
def Closed (used : V → Bool) (cs : List (Cmd V F K)) : Bool :=
  (lines (fun _ => none) cs).any fun ls => ls.all fun l => l.all (Word.uses used)

/-- **Hygiene**: such a script starts the same commands from any two states that agree on
these variables, whatever the other variables and the functions are. -/
theorem commands_congr {used : V → Bool} {cs : List (Cmd V F K)} (hcs : Closed used cs = true)
    {s s' : State V F K} (h : ∀ x, used x = true → s.vars x = s'.vars x) :
    commands holes s cs = commands holes s' cs := by
  obtain ⟨ls, hls, hall⟩ : ∃ ls, lines (fun _ => none) cs = some ls ∧
      (ls.all fun l => l.all (Word.uses used)) = true := by
    rw [Closed] at hcs
    cases hls : lines (fun _ => none) cs with
    | none => simp [hls] at hcs
    | some ls => exact ⟨ls, rfl, by simpa [hls] using hcs⟩
  have hnone : ∀ t : State V F K, ∀ f body,
      (fun _ : F => (none : Option (List (Word V K)))) f = some body → t.funs f = some body := by
    intro t f body hbody
    cases hbody
  rw [commands_eq_lines holes (hnone s) hls, commands_eq_lines holes (hnone s') hls]
  apply List.map_congr_left
  intro l hl
  apply List.map_congr_left
  intro w hw
  exact expand_congr holes h
    (List.all_eq_true.mp (List.all_eq_true.mp hall l hl) w hw)

/-! ## Variables that a script leaves alone -/

/-- The script does not set the variable. -/
def Keeps (x : V) (cs : List (Cmd V F K)) : Bool :=
  cs.all fun
    | .assign y _ => y ≠ x
    | .append y _ => y ≠ x
    | _ => true

theorem vars_of_keeps {x : V} {cs : List (Cmd V F K)} (hx : Keeps x cs = true)
    (s : State V F K) : (exec holes s cs).2.vars x = s.vars x := by
  induction cs generalizing s with
  | nil => rfl
  | cons c cs ih =>
      rw [Keeps, List.all_cons, Bool.and_eq_true] at hx
      have hrest := ih hx.2 (c.exec holes s).2
      refine hrest.trans ?_
      cases c with
      | assign y w => exact Function.update_of_ne (of_decide_eq_true hx.1).symm ..
      | append y w => exact Function.update_of_ne (of_decide_eq_true hx.1).symm ..
      | define f body => rfl
      | call y w f =>
          simp only [Cmd.exec]
          cases s.funs f <;> rfl

end SmtCacheBenchmarks.Library.ShellScript
