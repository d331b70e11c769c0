import QuickJsOxide.Arrays.SortCorrect
import QuickJsOxide.AsyncGenerators.Drain
import QuickJsOxide.Atomics.WaiterSafety
import QuickJsOxide.Bytecode.Soundness
import QuickJsOxide.Collections.Ordered
import QuickJsOxide.Collections.Runs
import QuickJsOxide.Dates.Bijection
import QuickJsOxide.Frames.CallRollback
import QuickJsOxide.Objects.CacheRuns
import QuickJsOxide.Objects.Descriptors
import QuickJsOxide.Objects.InternerRuns
import QuickJsOxide.Promises.Aggregates
import QuickJsOxide.Promises.Delivery
import QuickJsOxide.Proxies.OwnKeys
import QuickJsOxide.References.Release
import QuickJsOxide.RegExp.Boundaries
import QuickJsOxide.Strings.ContentRefinement
import QuickJsOxide.Strings.RoundTrip
import QuickJsOxide.Unicode.CanonicalOrder
import QuickJsOxide.Unicode.CaseClosure
import QuickJsOxide.Unicode.Composition
