import IndexKeeper.Provider.Request

set_option autoImplicit false

namespace IndexKeeper

namespace Http

-- The equations of `follow` are slow to make, so its recursion is opened by hand.
theorem follow_final (server : Server) (fuel : Nat) (sent : List Request) (request : Request) (r : Response)
    (sendable : request.sendable = true) (answered : server sent request = some r)
    (stays : ∀ u, r.redirection? u = none) : follow server fuel sent request = (some r, sent ++ [request]) := by
  delta Http.follow Http.follow._f
  rw [Nat.brecOn.eq]
  simp [sendable, answered, stays]

theorem follow_unanswered (server : Server) (fuel : Nat) (sent : List Request) (request : Request)
    (silent : request.sendable = false ∨ server sent request = none) :
    follow server fuel sent request = (none, sent) := by
  delta Http.follow Http.follow._f
  rw [Nat.brecOn.eq]
  rcases silent with unsendable | unanswered
  · simp [unsendable]
  · simp [unanswered]

theorem success_stays (r : Response) (success : r.isSuccess = true) (u : Url) : r.redirection? u = none := by
  rw [Response.isSuccess, decide_eq_true_iff] at success
  have final : [301, 302, 303, 307, 308].contains r.status = false := by
    simp
    omega
  rw [Response.redirection?, final]
  rfl

end Http

namespace Provider

theorem send_successful (server : Http.Server) (sent : List Http.Request) (request : Http.Request)
    (operation unsent : String) (r : Http.Response) (sendable : request.sendable = true)
    (answered : server sent request = some r) (success : r.isSuccess = true) :
    send server sent request operation unsent = (.ok r, sent ++ [request]) := by
  unfold send Http.ask
  rw [Http.follow_final server _ sent request r sendable answered (Http.success_stays r success)]
  simp [success]

theorem send_unanswered (server : Http.Server) (sent : List Http.Request) (request : Http.Request)
    (operation unsent : String) (silent : request.sendable = false ∨ server sent request = none) :
    send server sent request operation unsent = (.error (.reported unsent), sent) := by
  unfold send Http.ask
  rw [Http.follow_unanswered server _ sent request silent]

theorem send_answered (server : Http.Server) (sent : List Http.Request) (request : Http.Request)
    (operation unsent : String) (r : Http.Response) (sendable : request.sendable = true) (fine : r.status = 200)
    (answered : server sent request = some r) :
    send server sent request operation unsent = (.ok r, sent ++ [request]) :=
  send_successful server sent request operation unsent r sendable answered (by simp [Http.Response.isSuccess, fine])

end Provider
end IndexKeeper
