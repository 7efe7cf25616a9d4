import Mathlib.Data.List.DropRight
import CppChat.Ports.UserStore

/-!
# The server's configuration

`load_default_config` starts from the defaults of `ServerConfig`, reads `config/mysql.env`
over them and the environment over that.  A setting that is missing, empty or rejected
keeps the value that is there.

The file is its content, `none` when it cannot be opened.  The numbers are unbounded here:
what `stoi` returns is an `int`, and the port that is cast to 16 bits is in their range.

## Main results

* `lookup_loadEnvFile`: of several lines with one key the last one counts.
* `parseIntOrDefault_eq`: what a parse helper makes of a text.
-/

namespace CppChat.Ports.Config

open CppChat.Verified
open CppChat.Ports.Users (stoi)

/-- All settings, with their defaults. -/
structure ServerConfig where
  host : Bytes := ascii "0.0.0.0"
  port : Int := 9000
  logDbHost : Bytes := ascii "127.0.0.1"
  logDbPort : Int := 3306
  logDbUser : Bytes := ascii "cpp_chat"
  logDbPassword : Bytes := ascii "cpp_chat"
  logDbName : Bytes := ascii "cpp_chat"
  dbPoolSize : Int := 4
  dbConnectTimeoutSeconds : Int := 3
  dbReadTimeoutSeconds : Int := 5
  dbWriteTimeoutSeconds : Int := 5
  dbAcquireTimeoutMs : Int := 3000
  dbMaxReconnectAttempts : Int := 3
  dbIdlePingIntervalSeconds : Int := 30
  dbIdleCheckIntervalSeconds : Int := 10
  heartbeatIntervalSeconds : Int := 10
  heartbeatTimeoutSeconds : Int := 60
  workerThreads : Int := 4
  maxReadBufferBytes : Int := 2 * 1024 * 1024
  maxWriteBufferBytes : Int := 2 * 1024 * 1024
  maxResponseQueueSize : Int := 10000
  maxThreadPoolQueueSize : Int := 10000

/-! ## The file -/

/-- What `trim` removes. -/
def isTrimmed (b : UInt8) : Bool :=
  b == chr ' ' || b == chr '\t' || b == chr '\r' || b == chr '\n'

/-- `trim`. -/
def trim (value : Bytes) : Bytes := (value.dropWhile isTrimmed).rdropWhile isTrimmed

/-- The lines that `std::getline` reads one after the other. -/
def getLines : Bytes → List Bytes
  | [] => []
  | b :: rest =>
      if b = chr '\n' then [] :: getLines rest
      else
        match getLines rest with
        | [] => [[b]]
        | line :: lines => (b :: line) :: lines

/-- The key and the value of a line, if it has them. -/
def parseLine (line : Bytes) : Option (Bytes × Bytes) :=
  let line := trim line
  if line.isEmpty || line.head? == some (chr '#') then none
  else if !line.contains (chr '=') then none
  else
    let key := trim (line.takeWhile (· != chr '='))
    let value := trim ((line.dropWhile (· != chr '=')).drop 1)
    if key.isEmpty then none else some (key, value)

/-- One round of the loop of `load_env_file`. -/
def readLine (values : UnorderedMap Bytes Bytes) (line : Bytes) : UnorderedMap Bytes Bytes :=
  match parseLine line with
  | none => values
  | some (key, value) => values.insert key value

/-- `load_env_file`: a file that cannot be opened is as good as an empty one. -/
def loadEnvFile (file : Option Bytes) : UnorderedMap Bytes Bytes :=
  match file with
  | none => ∅
  | some content => (getLines content).foldl readLine ∅

/-- `get_file_value_or_default`: an empty value counts as missing. -/
def getFileValueOrDefault (values : UnorderedMap Bytes Bytes) (name default : Bytes) : Bytes :=
  match values.lookup name with
  | none => default
  | some value => if value.isEmpty then default else value

/-! ## The environment -/

/-- What `std::getenv` returns are C strings. -/
structure Environment where
  getenv : Bytes → Option Bytes
  noNul : ∀ name value, getenv name = some value → (0 : UInt8) ∉ value

/-- `get_env_or_default`: an empty value counts as missing. -/
def getEnvOrDefault (environment : Environment) (name default : Bytes) : Bytes :=
  match environment.getenv name with
  | none => default
  | some value => if value.isEmpty then default else value

/-! ## Numbers -/

/-- The parse helpers: a number that `stoi` finds, in the range of the helper. -/
def parseIntOrDefault (inRange : Int → Bool) (value : Bytes) (default : Int) : Int :=
  if value.isEmpty then default
  else
    match stoi value with
    | some parsed => if inRange parsed then parsed else default
    | none => default

/-- `parse_port_or_default`. -/
def parsePortOrDefault : Bytes → Int → Int :=
  parseIntOrDefault fun parsed => 0 < parsed && parsed ≤ 65535

/-- `parse_positive_int_or_default`. -/
def parsePositiveIntOrDefault : Bytes → Int → Int :=
  parseIntOrDefault fun parsed => 0 < parsed

/-- `parse_non_negative_int_or_default`. -/
def parseNonNegativeIntOrDefault : Bytes → Int → Int :=
  parseIntOrDefault fun parsed => 0 ≤ parsed

/-- The `get_env_…` helpers for numbers, over their parse helpers. -/
def getEnvIntOrDefault (parse : Bytes → Int → Int) (environment : Environment) (name : Bytes)
    (default : Int) : Int :=
  match environment.getenv name with
  | none => default
  | some value => if value.isEmpty then default else parse value default

/-- `get_env_port_or_default`. -/
def getEnvPortOrDefault : Environment → Bytes → Int → Int :=
  getEnvIntOrDefault parsePortOrDefault

/-- `get_env_positive_int_or_default`. -/
def getEnvPositiveIntOrDefault : Environment → Bytes → Int → Int :=
  getEnvIntOrDefault parsePositiveIntOrDefault

/-- `get_env_non_negative_int_or_default`. -/
def getEnvNonNegativeIntOrDefault : Environment → Bytes → Int → Int :=
  getEnvIntOrDefault parseNonNegativeIntOrDefault

/-! ## The two passes -/

/-- The settings of the file. -/
def ServerConfig.readFile (config : ServerConfig) (values : UnorderedMap Bytes Bytes) :
    ServerConfig :=
  let text := getFileValueOrDefault values
  let value (name : Bytes) := getFileValueOrDefault values name []
  { config with
    logDbHost := text (ascii "CPP_CHAT_LOG_DB_HOST")
      (text (ascii "CPP_CHAT_DB_HOST") config.logDbHost)
    logDbPort := parsePortOrDefault (value (ascii "CPP_CHAT_LOG_DB_PORT"))
      (parsePortOrDefault (value (ascii "CPP_CHAT_DB_PORT")) config.logDbPort)
    logDbUser := text (ascii "CPP_CHAT_LOG_DB_USER")
      (text (ascii "CPP_CHAT_DB_USER") config.logDbUser)
    logDbPassword := text (ascii "CPP_CHAT_LOG_DB_PASSWORD")
      (text (ascii "CPP_CHAT_DB_PASSWORD") config.logDbPassword)
    logDbName := text (ascii "CPP_CHAT_LOG_DB_NAME")
      (text (ascii "CPP_CHAT_DB_NAME") config.logDbName)
    dbPoolSize := parsePositiveIntOrDefault (value (ascii "CPP_CHAT_DB_POOL_SIZE"))
      config.dbPoolSize
    dbConnectTimeoutSeconds := parsePositiveIntOrDefault
      (value (ascii "CPP_CHAT_DB_CONNECT_TIMEOUT_SECONDS")) config.dbConnectTimeoutSeconds
    dbReadTimeoutSeconds := parsePositiveIntOrDefault
      (value (ascii "CPP_CHAT_DB_READ_TIMEOUT_SECONDS")) config.dbReadTimeoutSeconds
    dbWriteTimeoutSeconds := parsePositiveIntOrDefault
      (value (ascii "CPP_CHAT_DB_WRITE_TIMEOUT_SECONDS")) config.dbWriteTimeoutSeconds
    dbAcquireTimeoutMs := parsePositiveIntOrDefault
      (value (ascii "CPP_CHAT_DB_ACQUIRE_TIMEOUT_MS")) config.dbAcquireTimeoutMs
    dbMaxReconnectAttempts := parseNonNegativeIntOrDefault
      (value (ascii "CPP_CHAT_DB_MAX_RECONNECT_ATTEMPTS")) config.dbMaxReconnectAttempts
    dbIdlePingIntervalSeconds := parsePositiveIntOrDefault
      (value (ascii "CPP_CHAT_DB_IDLE_PING_INTERVAL_SECONDS")) config.dbIdlePingIntervalSeconds
    dbIdleCheckIntervalSeconds := parsePositiveIntOrDefault
      (value (ascii "CPP_CHAT_DB_IDLE_CHECK_INTERVAL_SECONDS")) config.dbIdleCheckIntervalSeconds
    maxReadBufferBytes := parsePositiveIntOrDefault
      (value (ascii "CPP_CHAT_MAX_READ_BUFFER_BYTES")) config.maxReadBufferBytes
    maxWriteBufferBytes := parsePositiveIntOrDefault
      (value (ascii "CPP_CHAT_MAX_WRITE_BUFFER_BYTES")) config.maxWriteBufferBytes
    maxResponseQueueSize := parsePositiveIntOrDefault
      (value (ascii "CPP_CHAT_MAX_RESPONSE_QUEUE_SIZE")) config.maxResponseQueueSize
    maxThreadPoolQueueSize := parsePositiveIntOrDefault
      (value (ascii "CPP_CHAT_THREAD_POOL_MAX_QUEUE_SIZE")) config.maxThreadPoolQueueSize }

/-- The settings of the environment. -/
def ServerConfig.readEnvironment (config : ServerConfig) (environment : Environment) :
    ServerConfig :=
  let text := getEnvOrDefault environment
  let port := getEnvPortOrDefault environment
  let positive := getEnvPositiveIntOrDefault environment
  let nonNegative := getEnvNonNegativeIntOrDefault environment
  { config with
    logDbHost := text (ascii "CPP_CHAT_LOG_DB_HOST")
      (text (ascii "CPP_CHAT_DB_HOST") config.logDbHost)
    logDbPort := port (ascii "CPP_CHAT_LOG_DB_PORT")
      (port (ascii "CPP_CHAT_DB_PORT") config.logDbPort)
    logDbUser := text (ascii "CPP_CHAT_LOG_DB_USER")
      (text (ascii "CPP_CHAT_DB_USER") config.logDbUser)
    logDbPassword := text (ascii "CPP_CHAT_LOG_DB_PASSWORD")
      (text (ascii "CPP_CHAT_DB_PASSWORD") config.logDbPassword)
    logDbName := text (ascii "CPP_CHAT_LOG_DB_NAME")
      (text (ascii "CPP_CHAT_DB_NAME") config.logDbName)
    dbPoolSize := positive (ascii "CPP_CHAT_DB_POOL_SIZE") config.dbPoolSize
    dbConnectTimeoutSeconds := positive (ascii "CPP_CHAT_DB_CONNECT_TIMEOUT_SECONDS")
      config.dbConnectTimeoutSeconds
    dbReadTimeoutSeconds := positive (ascii "CPP_CHAT_DB_READ_TIMEOUT_SECONDS")
      config.dbReadTimeoutSeconds
    dbWriteTimeoutSeconds := positive (ascii "CPP_CHAT_DB_WRITE_TIMEOUT_SECONDS")
      config.dbWriteTimeoutSeconds
    dbAcquireTimeoutMs := positive (ascii "CPP_CHAT_DB_ACQUIRE_TIMEOUT_MS")
      config.dbAcquireTimeoutMs
    dbMaxReconnectAttempts := nonNegative (ascii "CPP_CHAT_DB_MAX_RECONNECT_ATTEMPTS")
      config.dbMaxReconnectAttempts
    dbIdlePingIntervalSeconds := positive (ascii "CPP_CHAT_DB_IDLE_PING_INTERVAL_SECONDS")
      config.dbIdlePingIntervalSeconds
    dbIdleCheckIntervalSeconds := positive (ascii "CPP_CHAT_DB_IDLE_CHECK_INTERVAL_SECONDS")
      config.dbIdleCheckIntervalSeconds
    maxReadBufferBytes := positive (ascii "CPP_CHAT_MAX_READ_BUFFER_BYTES")
      config.maxReadBufferBytes
    maxWriteBufferBytes := positive (ascii "CPP_CHAT_MAX_WRITE_BUFFER_BYTES")
      config.maxWriteBufferBytes
    maxResponseQueueSize := positive (ascii "CPP_CHAT_MAX_RESPONSE_QUEUE_SIZE")
      config.maxResponseQueueSize
    maxThreadPoolQueueSize := positive (ascii "CPP_CHAT_THREAD_POOL_MAX_QUEUE_SIZE")
      config.maxThreadPoolQueueSize }

/-- `load_default_config`: the defaults, then the file, then the environment. -/
def loadDefaultConfig (file : Option Bytes) (environment : Environment) : ServerConfig :=
  let config : ServerConfig := {}
  let fileValues := loadEnvFile file
  (config.readFile fileValues).readEnvironment environment

/-! ## What the helpers do -/

/-- The keys and values of a file, line by line. -/
def assignments (file : Option Bytes) : List (Bytes × Bytes) :=
  (getLines (file.getD [])).filterMap parseLine

/-- The last assignment to a name counts. -/
theorem lookup_foldl_readLine (name : Bytes) (lines : List Bytes) :
    ∀ values : UnorderedMap Bytes Bytes,
      (lines.foldl readLine values).lookup name =
        ((lines.filterMap parseLine).reverse.lookup name).or (values.lookup name) := by
  induction lines with
  | nil =>
      intro values
      rfl
  | cons line rest ih =>
      intro values
      rw [List.foldl_cons, ih, readLine]
      cases hLine : parseLine line with
      | none => rw [List.filterMap_cons_none hLine]
      | some assignment =>
          obtain ⟨key, value⟩ := assignment
          rw [List.filterMap_cons_some hLine, List.reverse_cons, List.lookup_append,
            Option.or_assoc]
          congr 1
          by_cases hName : name = key
          · subst hName
            rw [List.lookup_cons_self, AList.lookup_insert, Option.some_or]
          · rw [List.lookup_cons, beq_false_of_ne hName, List.lookup_nil, Option.none_or,
              AList.lookup_insert_ne hName]

/-- The last line of a key gives its value. -/
theorem lookup_loadEnvFile (file : Option Bytes) (name : Bytes) :
    (loadEnvFile file).lookup name = (assignments file).reverse.lookup name := by
  cases file with
  | none => rfl
  | some content =>
      rw [loadEnvFile, lookup_foldl_readLine, AList.lookup_empty, Option.or_none]
      rfl

theorem stoi_nil : stoi [] = none := rfl

/-- What `stoi` reads, if it is in range. -/
theorem parseIntOrDefault_eq (inRange : Int → Bool) (value : Bytes) (default : Int) :
    parseIntOrDefault inRange value default = ((stoi value).filter inRange).getD default := by
  unfold parseIntOrDefault
  by_cases hEmpty : value = []
  · subst hEmpty
    rw [stoi_nil]
    rfl
  · rw [if_neg (by simpa using hEmpty)]
    cases stoi value with
    | none => rfl
    | some parsed =>
        by_cases hRange : inRange parsed = true <;> simp [Option.filter_some, hRange]

end CppChat.Ports.Config
