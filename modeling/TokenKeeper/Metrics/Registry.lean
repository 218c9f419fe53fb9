import TokenKeeper.Metrics.Family

/-!
# The registry

The metrics of the program and what has been recorded in them: requests to the issuer, requests that
the proxy answered, refreshes of tokens, and the process itself.
-/

namespace TokenKeeper

/-- What is recorded of the process. -/
structure ProcessGauges where
  cpuPercent : Int := 0
  residentBytes : Int := 0
  virtualBytes : Int := 0
  openFiles : Int := 0
  /-- Seconds since the start of 1970. -/
  startTime : Int := 0
  uptime : Int := 0
deriving DecidableEq, Repr

/-- Everything that has been recorded. -/
structure Registry where
  /-- Responses of the issuer, by code, method and client. -/
  clientRequests : Counters := []
  /-- Requests to the issuer, by method and client. -/
  clientDurations : Histograms := []
  /-- Requests that the proxy answered, by code, method and handler. -/
  httpRequests : Counters := []
  /-- The same requests, by code, method and handler. -/
  httpDurations : Histograms := []
  /-- Tokens that were published, by mode. -/
  refreshes : Counters := []
  /-- Cycles that failed, by mode and reason. -/
  refreshFailures : Counters := []
  /-- The expiry of a published token in seconds since the start of 1970, by mode. -/
  expiries : Series Int := []
  process : ProcessGauges := {}
deriving DecidableEq, Repr

namespace Registry

/-- The client that speaks to the issuer, as it is named in labels. -/
def issuerClient : String := "oauth"

/-- The handler that forwards requests, as it is named in labels. -/
def proxyHandler : String := "proxy"

/-- A request was sent to the issuer. The response's code is known unless transport failed. -/
def recordIssuerRequest (r : Registry) (method : String) (code : Option String)
    (elapsed : Binary64 := .zero) : Registry :=
  let r := { r with clientDurations := r.clientDurations.observe [method, issuerClient] elapsed }
  match code with
  | some code =>
    { r with clientRequests := r.clientRequests.add [code, method, issuerClient] 1 }
  | none => r

/-- A request to the proxy was answered. -/
def recordAnswer (r : Registry) (method code : String) (elapsed : Binary64 := .zero) : Registry :=
  { r with
    httpRequests := r.httpRequests.add [code, method, proxyHandler] 1
    httpDurations := r.httpDurations.observe [code, method, proxyHandler] elapsed }

/-- A token was published. Its expiry is recorded if it has one. -/
def recordRefresh (r : Registry) (mode : String) (expiry : Option Int) : Registry :=
  let r := { r with refreshes := r.refreshes.add [mode] 1 }
  match expiry with
  | some secs => { r with expiries := r.expiries.update [mode] 0 fun _ => secs }
  | none => r

/-- A cycle failed. -/
def recordFailure (r : Registry) (mode reason : String) : Registry :=
  { r with refreshFailures := r.refreshFailures.add [mode, reason] 1 }

/-! ## Families -/

/-- The family of `clientRequests`. -/
def clientRequestsFamily : Family :=
  { name := "client_api_requests_total"
    help := "A counter for requests from the wrapped client."
    kind := .counter
    labels := ["code", "method", "client"] }

/-- The family of `clientDurations`. -/
def clientDurationsFamily : Family :=
  { name := "request_duration_seconds"
    help := "A histogram of request latencies."
    kind := .histogram
    labels := ["method", "client"] }

/-- The family of `httpRequests`. -/
def httpRequestsFamily : Family :=
  { name := "http_requests_total"
    help := "Tracks the number of HTTP requests."
    kind := .counter
    labels := ["code", "method", "handler"] }

/-- The family of `httpDurations`. -/
def httpDurationsFamily : Family :=
  { name := "http_request_duration_seconds"
    help := "Tracks the latencies for HTTP requests."
    kind := .histogram
    labels := ["code", "method", "handler"] }

/-- The family of `refreshes`. -/
def refreshesFamily : Family :=
  { name := "token_refresh_total"
    help := "Successful token refreshes by mode"
    kind := .counter
    labels := ["mode"] }

/-- The family of `refreshFailures`. -/
def refreshFailuresFamily : Family :=
  { name := "token_refresh_failures_total"
    help := "Failed token refreshes by mode and reason"
    kind := .counter
    labels := ["mode", "reason"] }

/-- The family of `expiries`. -/
def expiriesFamily : Family :=
  { name := "token_expiry_timestamp_seconds"
    help := "Expiry of the last published token"
    kind := .gauge
    labels := ["mode"] }

/-- The families of the process, each with its value. -/
def processFamilies (p : ProcessGauges) : List (Family × Int) :=
  [ (⟨"process_cpu_usage_percent", "CPU usage % of this process", .gauge, []⟩, p.cpuPercent),
    (⟨"process_resident_memory_bytes", "Resident memory used by this process", .gauge, []⟩,
      p.residentBytes),
    (⟨"process_virtual_memory_bytes", "Virtual memory used by this process", .gauge, []⟩,
      p.virtualBytes),
    (⟨"process_open_fds", "Number of open file descriptors", .gauge, []⟩, p.openFiles),
    (⟨"process_start_time_seconds", "Process start time (UNIX seconds)", .gauge, []⟩, p.startTime),
    (⟨"process_uptime_seconds", "Process uptime seconds", .gauge, []⟩, p.uptime) ]

end Registry

end TokenKeeper
