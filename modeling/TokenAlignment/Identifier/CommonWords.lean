/-
TokenAlignment/Identifier/CommonWords.lean

The words that every splitter knows, the most frequent first: common English
words, and words that show up in identifiers.

Single letters are left out on purpose.  With them any text would be a sequence
of known words.
-/

namespace TokenAlignment

/-- The known words in the order of their ranks; a repeated word has the rank of
its first place. -/
def commonWords : List String :=
  ["the", "of", "and", "to", "in", "is", "it", "for", "on", "as", "with", "be", "by", "at",
    "this", "or", "from", "not", "an", "if", "all", "get", "set", "new", "id", "no", "up",
    "out", "do", "can", "has", "is", "my", "we", "one", "two", "max", "min", "add", "len",
    "key", "value", "name", "type", "file", "data", "list", "map", "item", "node", "user",
    "count", "index", "size", "test", "string", "error", "time", "path", "text", "line",
    "code", "info", "config", "state", "result", "input", "output", "start", "end", "stop",
    "run", "read", "write", "open", "close", "load", "save", "init", "reset", "update",
    "delete", "remove", "create", "make", "build", "find", "search", "check", "handle",
    "handler", "parse", "parser", "format", "print", "log", "debug", "event", "message",
    "request", "response", "server", "client", "service", "model", "view", "controller",
    "manager", "factory", "builder", "helper", "util", "utils", "object", "class", "module",
    "package", "import", "export", "function", "method", "field", "param", "params", "args",
    "arg", "option", "options", "default", "current", "next", "prev", "previous", "first",
    "last", "left", "right", "top", "bottom", "width", "height", "offset", "length", "number",
    "total", "sum", "avg", "rate", "order", "sort", "filter", "group", "table", "row",
    "column", "cell", "query", "db", "sql", "http", "url", "uri", "json", "xml", "html",
    "api", "app", "web", "page", "form", "template", "field", "button", "label", "image",
    "color", "style", "content", "header", "body", "footer", "title", "date", "day", "week",
    "month", "year", "hour", "second", "timeout", "delay", "timer", "thread", "task", "job",
    "queue", "stack", "buffer", "cache", "pool", "lock", "mutex", "channel", "stream",
    "socket", "port", "host", "address", "network", "connection", "session", "token", "auth",
    "password", "account", "email", "phone", "role", "permission", "access", "admin", "group",
    "member", "owner", "parent", "child", "children", "root", "tree", "graph", "edge",
    "vertex", "point", "position", "location", "source", "target", "dest", "destination",
    "from", "to", "copy", "move", "swap", "merge", "split", "join", "append", "insert",
    "push", "pop", "peek", "clear", "empty", "full", "valid", "invalid", "enabled",
    "disabled", "enable", "disable", "visible", "hidden", "active", "is", "should", "will",
    "was", "are", "have", "had", "does", "did", "done", "ready", "pending", "failed",
    "success", "status", "code", "exit", "main", "app", "test", "mock", "fake", "stub",
    "spec", "case", "suite", "assert", "expect", "equal", "equals", "compare", "contains",
    "match", "matches", "pattern", "regex", "char", "byte", "bytes", "bit", "bits", "int",
    "integer", "float", "double", "long", "short", "bool", "boolean", "array", "vector",
    "dict", "hash", "set", "tuple", "pair", "entry", "entries", "element", "elements",
    "items", "values", "keys", "names", "types", "files", "lines", "words", "word", "letter",
    "digit", "decimal", "hex", "binary", "octal", "octet", "octets", "signed", "unsigned",
    "positive", "negative", "nonnegative", "zero", "null", "none", "nil", "true", "false",
    "yes", "on", "off", "bug", "bugs", "issue", "fix", "patch", "version", "release", "build",
    "deploy", "env", "environment", "local", "global", "remote", "public", "private",
    "static", "final", "const", "constant", "var", "variable", "let", "return", "throw",
    "catch", "try", "finally", "async", "await", "sync", "callback", "promise", "future",
    "listener", "observer", "subscriber", "publisher", "provider", "consumer", "producer",
    "worker", "process", "command", "action", "store", "reducer", "dispatch", "render",
    "draw", "paint", "scroll", "click", "press", "key", "mouse", "touch", "drag", "drop",
    "focus", "blur", "change", "changed", "submit", "cancel", "confirm", "dialog", "window",
    "frame", "panel", "screen", "display", "show", "hide", "toggle", "select", "selected",
    "selection", "range", "scope", "context", "env", "local", "temp", "tmp", "dir",
    "directory", "folder", "name", "ext", "extension", "mime", "encode", "decode", "encoding",
    "decoder", "encoder", "utf", "ascii", "unicode", "escape", "quote", "trim", "upper",
    "lower", "case", "camel", "snake", "prefix", "suffix", "begin", "finish", "complete",
    "progress", "percent", "ratio", "scale", "factor", "weight", "score", "rank", "level",
    "depth", "limit", "threshold", "retry", "retries", "attempt", "attempts", "random",
    "seed", "uuid", "guid", "sequence", "step", "steps", "iter", "iterator", "loop", "cursor",
    "pointer", "ref", "reference", "handle", "resource", "memory", "alloc", "free", "heap",
    "page", "block", "chunk", "segment", "region", "area", "zone", "shape", "rect", "circle",
    "size", "dimension", "matrix", "transform", "rotate", "translate", "vec", "math", "abs",
    "round", "floor", "ceil", "sqrt", "pow", "exp", "log", "sin", "cos", "tan", "sample",
    "feature", "label", "train", "predict", "loss", "accuracy", "score", "batch", "epoch",
    "layer", "input", "hello", "world", "foo", "bar", "baz", "temp"]

end TokenAlignment
