import Morgoth.Handlers

/-!
# What the starter tells tmux

* `bringUp_traced`: what every child of a start keeps to, the start keeps to;
* `bringUp_issues`: the output goes to the log file and the keys are the launch
  command, in every start.
-/

namespace Morgoth

namespace TmuxSessionWrapper

/-- The commands between two states of the wrapper are allowed ones. -/
def Issues (allowed : TmuxCommand → Prop) (t t' : TmuxSessionWrapper) : Prop :=
  ∃ new, t'.spawned = t.spawned ++ new ∧ ∀ child ∈ new, allowed child.command

variable {allowed : TmuxCommand → Prop} {t t' u : TmuxSessionWrapper}

theorem Issues.refl (t : TmuxSessionWrapper) : Issues allowed t t :=
  ⟨[], (List.append_nil _).symm, fun _ none_new => by cases none_new⟩

theorem Issues.trans (h : Issues allowed t t') (h' : Issues allowed t' u) : Issues allowed t u :=
  children_append h h'

theorem runChild_issues (h : Host) {command : TmuxCommand} (fine : allowed command)
    (t : TmuxSessionWrapper) : Issues allowed t (t.runChild h command).2 := by
  refine ⟨_, rfl, ?_⟩
  intro child mem
  rw [List.mem_singleton.mp mem]
  exact fine

theorem issues_traced (h : Host) : Traced h allowed (Issues allowed) where
  refl := .refl
  trans _ _ _ := .trans
  child _ fine := runChild_issues h fine

end TmuxSessionWrapper

namespace Server

open TmuxSessionWrapper

/-- What a start may tell tmux. -/
def startCommand (s : Server) (configuration : ServerConfiguration) : TmuxCommand → Prop
  | .pipePane command => command = "/usr/bin/cat > " ++ s.logFileName configuration
  | .sendKeys keys => keys = s.launchCommand configuration
  | _ => True

section Start
variable {h : Host} {allowed : TmuxCommand → Prop}
  {R : TmuxSessionWrapper → TmuxSessionWrapper → Prop} {s : Server}
  {configuration : ServerConfiguration} (traced : Traced h allowed R)
  (fine : ∀ command, s.startCommand configuration command → allowed command)
include traced fine

theorem launch_traced (t : TmuxSessionWrapper) : R t (s.launch h configuration t).1 := by
  have asking := fine .hasSession trivial
  have killing := fine .killSession trivial
  have piped : R t (t.redirectOutput h (s.logFileName configuration)).2 :=
    traced.inSession asking t (fine _ rfl)
  unfold launch
  cases redirected : t.redirectOutput h (s.logFileName configuration) with
  | mk done t' =>
    rw [redirected] at piped
    cases done with
    | false => exact traced.trans _ _ _ piped (traced.kill asking t' killing)
    | true =>
      have sent : R t' (t'.sendKeys h (s.launchCommand configuration)).2 :=
        traced.inSession asking t' (fine _ rfl)
      dsimp only
      cases typed : t'.sendKeys h (s.launchCommand configuration) with
      | mk done t'' =>
        rw [typed] at sent
        have both := traced.trans _ _ _ piped sent
        cases done with
        | false => exact traced.trans _ _ _ both (traced.kill asking t'' killing)
        | true => exact both

/-- What follows the creation of the session. -/
theorem created_traced (valid : s.valid = true) (configured : s.configuration = some configuration) :
    R ((s.tmux.setUser h (s.startUser h configuration)).create h).2 (s.bringUp h).1 := by
  rw [bringUp_configured h valid configured]
  cases outcome : (s.tmux.setUser h (s.startUser h configuration)).create h with
  | mk created t =>
    cases created with
    | false => exact traced.refl t
    | true =>
      dsimp only
      split
      · exact traced.refl t
      · exact launch_traced traced fine t

theorem bringUp_traced (configured : s.configuration = some configuration)
    (named : ∀ t : TmuxSessionWrapper, R t { t with user := s.startUser h configuration }) :
    R s.tmux (s.bringUp h).1 := by
  have asking := fine .hasSession trivial
  cases valid : s.valid with
  | false =>
    unfold bringUp
    rw [valid]
    exact traced.refl s.tmux
  | true =>
    have user := traced.setUser asking s.tmux named
    have made := traced.trans _ _ _ user (traced.create asking _ (fine .newSession trivial))
    exact traced.trans _ _ _ made (created_traced traced fine valid configured)

end Start

variable {s : Server} {configuration : ServerConfiguration}

theorem bringUp_issues (h : Host) (configured : s.configuration = some configuration) :
    Issues (s.startCommand configuration) s.tmux (s.bringUp h).1 :=
  bringUp_traced (issues_traced h) (fun _ => id) configured fun t => .refl t

end Server

end Morgoth
