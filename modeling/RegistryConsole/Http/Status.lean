/-! # Status codes

The code of an answer, what kind of answer it announces, and its usual phrase. -/

namespace RegistryConsole

/-- The status of an answer. -/
structure Status where
  code : Nat
  deriving DecidableEq

namespace Status

/-- Everything went well. -/
def ok : Status := ⟨200⟩

/-- Only a part is sent. -/
def partialContent : Status := ⟨206⟩

/-- It is still what is known of it. -/
def notModified : Status := ⟨304⟩

/-- It is somewhere else for now, to be asked for in the same way. -/
def temporaryRedirect : Status := ⟨307⟩

/-- There is nothing. -/
def notFound : Status := ⟨404⟩

/-- It cannot be asked for in this way. -/
def methodNotAllowed : Status := ⟨405⟩

/-- It is not what it was asked to be. -/
def preconditionFailed : Status := ⟨412⟩

/-- The part that is asked for does not exist. -/
def rangeNotSatisfiable : Status := ⟨416⟩

/-- Something is wrong on this side. -/
def internalError : Status := ⟨500⟩

/-- Whether the status announces success. -/
def isSuccess (s : Status) : Bool :=
  200 ≤ s.code && s.code < 300

/-- Whether the status announces that it is somewhere else. -/
def isRedirection (s : Status) : Bool :=
  300 ≤ s.code && s.code < 400

/-- Whether the status is one of those whose redirects are followed. -/
def IsFollowed (s : Status) : Prop :=
  s.code ∈ [301, 302, 303, 307, 308]

instance (s : Status) : Decidable s.IsFollowed :=
  inferInstanceAs (Decidable (s.code ∈ [301, 302, 303, 307, 308]))

/-- The codes that have a phrase, with their phrases. -/
def phrases : List (Nat × String) :=
  [(100, "Continue"), (101, "Switching Protocols"), (102, "Processing"), (200, "OK"),
    (201, "Created"), (202, "Accepted"), (203, "Non Authoritative Information"),
    (204, "No Content"), (205, "Reset Content"), (206, "Partial Content"),
    (207, "Multi-Status"), (208, "Already Reported"), (226, "IM Used"),
    (300, "Multiple Choices"), (301, "Moved Permanently"), (302, "Found"), (303, "See Other"),
    (304, "Not Modified"), (305, "Use Proxy"), (307, "Temporary Redirect"),
    (308, "Permanent Redirect"), (400, "Bad Request"), (401, "Unauthorized"),
    (402, "Payment Required"), (403, "Forbidden"), (404, "Not Found"),
    (405, "Method Not Allowed"), (406, "Not Acceptable"),
    (407, "Proxy Authentication Required"), (408, "Request Timeout"), (409, "Conflict"),
    (410, "Gone"), (411, "Length Required"), (412, "Precondition Failed"),
    (413, "Payload Too Large"), (414, "URI Too Long"), (415, "Unsupported Media Type"),
    (416, "Range Not Satisfiable"), (417, "Expectation Failed"), (418, "I'm a teapot"),
    (421, "Misdirected Request"), (422, "Unprocessable Entity"), (423, "Locked"),
    (424, "Failed Dependency"), (425, "Too Early"), (426, "Upgrade Required"),
    (428, "Precondition Required"), (429, "Too Many Requests"),
    (431, "Request Header Fields Too Large"), (451, "Unavailable For Legal Reasons"),
    (500, "Internal Server Error"), (501, "Not Implemented"), (502, "Bad Gateway"),
    (503, "Service Unavailable"), (504, "Gateway Timeout"),
    (505, "HTTP Version Not Supported"), (506, "Variant Also Negotiates"),
    (507, "Insufficient Storage"), (508, "Loop Detected"), (510, "Not Extended"),
    (511, "Network Authentication Required")]

/-- The usual phrase of a status, or its code where it has none. -/
def title (s : Status) : String :=
  match phrases.find? fun p => p.1 == s.code with
  | some p => p.2
  | none => toString s.code

end Status

end RegistryConsole
