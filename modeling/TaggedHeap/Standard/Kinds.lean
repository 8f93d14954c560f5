import TaggedHeap.TagSpace.Build
import TaggedHeap.TagSpace.Growth

/-! The standard kinds of the runtime, in the order of their tags, and the spaces made of them. The
internal ones are structures of the runtime itself, which only the collector sees. -/
namespace TaggedHeap.Standard

def compiledSyntaxForms : List String :=
  ["toplevel", "local", "local-unbox", "syntax", "application", "application2", "application3",
   "sequence", "branch", "unclosed-procedure", "let-value", "let-void", "letrec", "let-one",
   "with-cont-mark", "quote-syntax"]

def registeredValuesAndSlots : List String :=
  ["compiled-unclosed-procedure", "compiled-let-value", "compiled-let-void", "compiled-syntax",
   "compiled-toplevel", "compiled-quote-syntax", "quote-compilation", "variable",
   "module-variable"]

def runtimeKinds : List String :=
  ["prim", "closed-prim", "closure", "case-closure", "cont", "escaping-cont", "proc-struct",
   "native-closure", "structure", "char", "integer", "bignum", "rational", "float", "double",
   "complex-izi", "complex", "char-string", "byte-string", "unix-path", "windows-path", "symbol",
   "keyword", "null", "pair", "vector", "inspector", "input-port", "output-port", "eof", "true",
   "false", "void", "syntax-compiler", "macro", "box", "thread", "stx-offset", "cont-mark-set",
   "sema", "hash-table", "cpointer", "weak-box", "ephemeron", "struct-type", "module-index",
   "set-macro", "listener", "namespace", "config", "stx", "will-executor", "custodian",
   "random-state", "regexp", "bucket", "bucket-table", "subprocess", "compilation-top",
   "wrap-chunk", "eval-waiting", "tail-call-waiting", "undefined", "struct-property",
   "multiple-values", "placeholder", "case-lambda-sequence", "begin0-sequence", "rename-table",
   "module", "svector", "lazy-macro", "resolve-prefix", "security-guard", "indent", "udp",
   "udp-evt", "tcp-accept-evt", "id-macro", "evt-set", "wrap-evt", "handle-evt",
   "nack-guard-evt", "semaphore-repost", "channel", "channel-put", "thread-resume",
   "thread-suspend", "thread-dead", "poll-evt", "nack-evt", "module-registry", "thread-set",
   "string-converter", "alarm", "thread-cell", "channel-syncer", "special-comment", "write-evt",
   "always-evt", "never-evt", "progress-evt", "certifications", "already-comp", "readtable",
   "intdef-context", "lexical-rib", "thread-cell-values", "global-ref", "cont-mark-chain",
   "raw-pair", "prompt", "prompt-tag", "delay-syntax"]

def internalKinds : List String :=
  ["weak-array", "comp-env", "constant-binding", "resolve-info", "optimize-info", "compile-info",
   "cont-mark", "saved-stack", "reply-item", "closure-info", "overflow", "overflow-jmp",
   "meta-cont", "dyn-wind-cell", "dyn-wind-info", "dyn-wind", "dup-check", "thread-memory",
   "input-file", "input-fd", "oskit-console-input", "tested-input-file", "tested-output-file",
   "indexed-string", "output-file", "load-handler-data", "pipe", "beos-process", "system-child",
   "tcp", "write-data", "tcp-select-info", "namespace-option", "param-data", "will",
   "will-registration", "struct-proc-info", "linker-name", "param-map", "finalization",
   "finalizations", "cpp-object", "cpp-array-object", "stack-object", "preallocated-object",
   "thread-hop", "srcloc", "evt", "syncing", "comp-prefix", "user-input", "user-output",
   "compact-port", "read-special-dw", "regwork", "buf-holder", "parameterization",
   "print-params", "read-params", "native-code", "native-code-plus-case", "jitter-data",
   "module-exports", "delay-load-info", "marshal-info", "unmarshal-info"]

def catalog : Catalog :=
  ((((Catalog.empty.kinds .compiledSyntaxForm compiledSyntaxForms).boundary .values).kinds
    .registeredValueOrSlot registeredValuesAndSlots).boundary .compiledValues).kinds
    .runtimeKind runtimeKinds

def internalTier : InternalTier := ⟨internalKinds⟩

def space (withInternalTier : Bool) : Except Fault TagSpace := do
  let base ← TagSpace.build catalog withInternalTier
  let full ← if withInternalTier then internalTier.appendTo base else pure base
  return full.freeze

end TaggedHeap.Standard
