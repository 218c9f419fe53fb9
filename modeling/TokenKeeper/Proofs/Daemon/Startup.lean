import TokenKeeper.Daemon.Basic
import TokenKeeper.Proofs.Issuer.Discovery

/-!
# Fatal errors come first

What stops the program before it works stops it before it has done anything. A flaw in the flags,
the settings or the wiring of the proxy (`Startup.IsFlawed`) leaves the whole machine as it was. An
issuer that cannot be discovered (`Startup.FailsToDiscover`) leaves files and ports alone, and all
that was sent until then are questions, none of which asks for a token.
-/

namespace TokenKeeper

open Http

/-- Whether a request that a server has seen is one for a token, of any source. -/
def Http.SeenRequest.AsksForToken (q : SeenRequest) : Prop :=
  ∃ (source : TokenSource) (r : Request) (fields : Header) (body : List UInt8),
    source.request = .ok r ∧ q = Network.seenRequest r fields body

/-- A question does not ask for a token. -/
theorem Http.SeenRequest.IsQuestion.not_asksForToken {q : SeenRequest} (h : q.IsQuestion) :
    ¬ q.AsksForToken := by
  rintro ⟨source, r, fields, body, hr, rfl⟩
  exact absurd h.method (TokenSource.method_ne_of_request hr)

namespace Startup

/-- Whether there is something wrong that can be seen before anything is done: with the flags, a
request for help aside, with the settings, with the backend or with what is to be trusted of it. -/
inductive IsFlawed (arguments : List String) (environment : List (String × String))
    (tree : FileTree) : Prop
  | flags {e : FlagError} (h : Flags.ofArguments arguments environment = .error e)
      (hhelp : e ≠ .helpWanted) (hversion : e ≠ .versionWanted)
  | settings {flags : Flags} {e : Error}
      (hflags : Flags.ofArguments arguments environment = .ok flags)
      (h : Settings.ofFlags flags = .error e)
  | backend {flags : Flags} {s : Settings} {b : BackendSettings} {e : Error}
      (hflags : Flags.ofArguments arguments environment = .ok flags)
      (hsettings : Settings.ofFlags flags = .ok s) (hbackend : s.backend = some b)
      (h : Backend.ofUrl b.url = .error e)
  | trust {flags : Flags} {s : Settings} {b : BackendSettings} {e : Error}
      (hflags : Flags.ofArguments arguments environment = .ok flags)
      (hsettings : Settings.ofFlags flags = .ok s) (hbackend : s.backend = some b)
      (h : b.trusted tree = .error e)

/-- Whether all is well until the issuer is asked, and then its endpoints are not found. -/
inductive FailsToDiscover (arguments : List String) (environment : List (String × String))
    (m : Machine) : Prop
  | intro {flags : Flags} {s : Settings} {p : Option Proxy} {e : Error}
      (hflags : Flags.ofArguments arguments environment = .ok flags)
      (hsettings : Settings.ofFlags flags = .ok s) (hproxy : proxy s m.tree = .ok p)
      (h : (Provider.discover s.account.issuerUrl m.exchange).1 = some (.error e))

/-- Whether a refusal is a failure: all are but the requests for help. -/
def Refusal.IsFailure (r : Refusal) : Prop :=
  r ≠ .flags .helpWanted ∧ r ≠ .flags .versionWanted

theorem Refusal.isFailure_failure (f : Failure) : (failure f).IsFailure :=
  ⟨nofun, nofun⟩

variable {arguments : List String} {environment : List (String × String)} {flags : Flags}
  {s : Settings} {e : Error} {m m' : Machine}

/-- There is no proxy without a backend that can be spoken to and what is trusted of it. -/
theorem exists_proxy_error {b : BackendSettings} {tree : FileTree} (hbackend : s.backend = some b)
    (h : (∃ e, Backend.ofUrl b.url = .error e) ∨ ∃ e, b.trusted tree = .error e) :
    ∃ e, proxy s tree = .error e := by
  simp only [proxy, hbackend]
  rcases hurl : Backend.ofUrl b.url with e | backend
  · exact ⟨e, rfl⟩
  · rcases h with ⟨e, he⟩ | ⟨e, he⟩
    · cases hurl.symm.trans he
    · exact ⟨e, by rw [he]; rfl⟩

/-- A fault in the wiring ends startup with the machine that the wiring leaves. -/
theorem start_of_wire_error (hflags : Flags.ofArguments arguments environment = .ok flags)
    (hsettings : Settings.ofFlags flags = .ok s) (h : wire s m = (some (.error e), m')) :
    start arguments environment m = (some (.error (.failure (.ofError e))), m') := by
  simp only [start, hflags, hsettings, h]

/-- A proxy that cannot be set up ends startup where the wiring begins. -/
theorem start_of_proxy_error (hflags : Flags.ofArguments arguments environment = .ok flags)
    (hsettings : Settings.ofFlags flags = .ok s) (h : proxy s m.tree = .error e) :
    start arguments environment m = (some (.error (.failure (.ofError e))), m) := by
  have hwire : wire s m = (some (.error e), m) := by rw [wire, h]
  exact start_of_wire_error hflags hsettings hwire

/-- **A flaw ends startup before anything is done.** -/
theorem start_of_isFlawed (h : IsFlawed arguments environment m.tree) :
    ∃ refusal, refusal.IsFailure ∧ start arguments environment m = (some (.error refusal), m) := by
  cases h with
  | @flags e h hhelp hversion =>
    refine ⟨.flags e, ⟨fun heq => hhelp ?_, fun heq => hversion ?_⟩, by simp only [start, h]⟩
    · exact Refusal.flags.inj heq
    · exact Refusal.flags.inj heq
  | @settings flags e hflags h =>
    refine ⟨.failure (.ofError e), Refusal.isFailure_failure _, ?_⟩
    simp only [start, hflags, h]
  | backend hflags hsettings hbackend h =>
    obtain ⟨e, he⟩ := exists_proxy_error hbackend (.inl ⟨_, h⟩)
    exact ⟨_, Refusal.isFailure_failure _, start_of_proxy_error hflags hsettings he⟩
  | trust hflags hsettings hbackend h =>
    obtain ⟨e, he⟩ := exists_proxy_error hbackend (.inr ⟨_, h⟩)
    exact ⟨_, Refusal.isFailure_failure _, start_of_proxy_error hflags hsettings he⟩

/-- **An issuer that is not found ends startup before files and ports are touched**, and nothing but
questions have been sent. -/
theorem start_of_failsToDiscover (h : FailsToDiscover arguments environment m) :
    ∃ f x, m.exchange.AsksOnly x ∧
      start arguments environment m = (some (.error (.failure f)), { m with exchange := x }) := by
  obtain @⟨flags, s, p, e, hflags, hsettings, hproxy, h⟩ := h
  have hasks := Provider.asksOnly_discover s.account.issuerUrl m.exchange
  rcases hfound : Provider.discover s.account.issuerUrl m.exchange with ⟨result, x⟩
  rw [hfound] at h hasks
  obtain rfl : result = some (.error e) := h
  have hwire : wire s m = (some (.error e), { m with exchange := x }) := by
    simp only [wire, hproxy, TokenSource.discover, hfound]
    rfl
  exact ⟨.ofError e, x, hasks, start_of_wire_error hflags hsettings hwire⟩

end Startup

namespace Daemon

open Startup

variable {arguments : List String} {environment : List (String × String)} {m m' : Machine}

/-- Only who asks for help is refused without a failure. -/
theorem exitCode_refused {r : Refusal} (h : r.IsFailure) (m : Machine) :
    (refused m r).exitCode ≠ 0 := by
  obtain ⟨hhelp, hversion⟩ := h
  rcases r with (- | - | - | - | - | - | -) | f
  case flags.helpWanted => exact absurd rfl hhelp
  case flags.versionWanted => exact absurd rfl hversion
  all_goals exact nofun

/-- A refusal leaves the machine as startup has left it. -/
theorem machine_refused (m : Machine) (r : Refusal) : (refused m r).machine = m := by
  rcases r with (- | - | - | - | - | - | -) | f <;> rfl

/-- The program ends where its startup ends. -/
theorem run_of_start_error {r : Refusal} (h : start arguments environment m = (some (.error r), m'))
    (startedAt : Instant) (stop : StopCondition) :
    run arguments environment startedAt stop m = some (refused m' r) := by
  rw [run, h]

/-- **Fatal errors come first.** For all arguments, every environment and every machine: if there is
a flaw that can be seen before anything is done, the program ends and fails, and network, ports,
files and all that is recorded are what they were. If no endpoints of the issuer are found, for
whatever reason, the program ends and fails, ports and files are what they were, and no request that
the server has seen meanwhile asks for a token: each of them is a question without a body, and at
most one of them is recorded. -/
theorem fatal_errors_come_first (arguments : List String) (environment : List (String × String))
    (startedAt : Instant) (stop : StopCondition) (m : Machine) :
    let ended := run arguments environment startedAt stop m
    (IsFlawed arguments environment m.tree →
      ∃ report, ended = some report ∧ report.exitCode ≠ 0 ∧ report.machine = m) ∧
    (FailsToDiscover arguments environment m →
      ∃ report, ended = some report ∧
        report.exitCode ≠ 0 ∧ report.machine.tree = m.tree ∧ report.machine.bound = m.bound ∧
        m.exchange.AsksOnly report.machine.exchange ∧
        ∃ more, report.machine.exchange.network.seen = m.exchange.network.seen ++ more ∧
          ∀ q ∈ more, ¬ q.AsksForToken) := by
  intro ended
  refine ⟨fun h => ?_, fun h => ?_⟩
  · obtain ⟨refusal, hfailure, hstart⟩ := start_of_isFlawed h
    exact ⟨_, run_of_start_error hstart startedAt stop, exitCode_refused hfailure m,
      machine_refused m refusal⟩
  · obtain ⟨f, x, hasks, hstart⟩ := start_of_failsToDiscover h
    obtain ⟨more, hseen, hmore⟩ := hasks.network
    refine ⟨_, run_of_start_error hstart startedAt stop, ?_⟩
    rw [machine_refused]
    exact ⟨exitCode_refused (Refusal.isFailure_failure f) _, rfl, rfl, hasks, more, hseen,
      fun q hq => (hmore q hq).not_asksForToken⟩

/-- A file of certificates that is missing is seen before the issuer is asked, a document about
another issuer after that. -/
theorem missing_certificates_and_foreign_document_are_fatal :
    let arguments := ["--oidc.issuer-url=http://issuer.example", "--file=token"]
    let flawedArguments :=
      arguments ++ ["--upstream.url=http://backend.example", "--upstream.ca-file=missing.pem"]
    let document := Utf8.ofText "\x7b\"issuer\": \"http://other.example\"\x7d"
    let m : Machine :=
      { exchange :=
          { network := { reachable := true, replies := [.answer ⟨200⟩ [] document .announced] } } }
    (IsFlawed flawedArguments [] m.tree ∧
      ∃ flawed, run flawedArguments [] ⟨0⟩ { requests := 1 } m = some flawed ∧
        flawed.exitCode ≠ 0 ∧ flawed.machine = m) ∧
    FailsToDiscover arguments [] m ∧
      ∃ lost, run arguments [] ⟨0⟩ { requests := 1 } m = some lost ∧
        lost.exitCode ≠ 0 ∧ lost.machine.tree = m.tree ∧ lost.machine.bound = m.bound ∧
        lost.machine.exchange.network.seen.length = 1 ∧
        ∀ q ∈ lost.machine.exchange.network.seen, ¬ q.AsksForToken := by
  intro arguments flawedArguments document m
  let flags : Flags := { issuerUrl := "http://issuer.example", file := some "token" }
  let settings : Settings :=
    { account := Settings.accountOfFlags flags, scopes := [], margin := .seconds 300
      file := some ⟨"token", "token.tmp"⟩, backend := none
      listen := "0.0.0.0:8080", listenInternal := "0.0.0.0:8081"
      logLevel := .info, logFormat := .logfmt, name := "token-refresher" }
  have hflawed : IsFlawed flawedArguments [] m.tree := by
    let flawedFlags : Flags :=
      { flags with
        backendUrl := some "http://backend.example", authorityFile := some "missing.pem" }
    let backend : BackendSettings :=
      { url := { scheme := "http", host := some (.name "backend.example"), path := .rooted [""] }
        authorityFile := some "missing.pem" }
    have hflags : Flags.ofArguments flawedArguments [] = .ok flawedFlags := by decide +kernel
    have hsettings : Settings.ofFlags flawedFlags =
        .ok { settings with backend := some backend } := by
      decide +kernel
    have htrusted : backend.trusted m.tree =
        .error (.backend (.unreadableAuthority "missing.pem" (.kernel .notFound))) := by
      decide +kernel
    exact .trust hflags hsettings rfl htrusted
  have hlost : FailsToDiscover arguments [] m := by
    have hflags : Flags.ofArguments arguments [] = .ok flags := by decide +kernel
    have hsettings : Settings.ofFlags flags = .ok settings := by decide +kernel
    have hdiscovery : (Provider.discover "http://issuer.example" m.exchange).1 =
        some (.error (.discovery
          (.otherIssuer "http://issuer.example" "http://other.example"))) := by
      decide +kernel
    exact .intro hflags hsettings rfl hdiscovery
  obtain ⟨lost, hlostEnds, hfailed, htree, hbound, -, more, hseen, hmore⟩ :=
    (fatal_errors_come_first arguments [] ⟨0⟩ { requests := 1 } m).2 hlost
  have hcount : (run arguments [] ⟨0⟩ { requests := 1 } m).map
      (·.machine.exchange.network.seen.length) = some 1 := by
    decide +kernel
  rw [hlostEnds] at hcount
  refine ⟨⟨hflawed, (fatal_errors_come_first flawedArguments [] ⟨0⟩ { requests := 1 } m).1 hflawed⟩,
    hlost, lost, hlostEnds, hfailed, htree, hbound, Option.some.inj hcount, fun q hq => ?_⟩
  rw [hseen] at hq
  exact hmore q hq

end Daemon

end TokenKeeper
