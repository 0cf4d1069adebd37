import AfpfsNg.Did.Changes
import AfpfsNg.Did.Coherence
import AfpfsNg.Dsi.Bounds
import AfpfsNg.Dsi.Ids
import AfpfsNg.Fork.Acknowledged
import AfpfsNg.Proto.Bounds
import AfpfsNg.Mid.ListingErrors
import AfpfsNg.Mid.Journal
import AfpfsNg.Mid.Naming
import AfpfsNg.Proto.Setparms
import AfpfsNg.Did.Expiry
import AfpfsNg.Fork.Progress
import AfpfsNg.Mid.Outcomes
import AfpfsNg.Afp.AppleDouble
import AfpfsNg.Fork.FinderInfo
import AfpfsNg.Mid.ReadBuffers
import AfpfsNg.Mid.AppleDoubleList
import AfpfsNg.Unicode.Cursor
import AfpfsNg.Proto.Split
import AfpfsNg.Proto.Session
import AfpfsNg.Uam.Messages
import AfpfsNg.Mid.ChmodProbe
import AfpfsNg.Dsi.Unmatched
import AfpfsNg.Afp.Connect
import AfpfsNg.Url.Termination
import AfpfsNg.Unicode.Lookup
import AfpfsNg.Dsi.PickVersion
import AfpfsNg.Afp.Loop
import AfpfsNg.Afp.NameCheck
import AfpfsNg.Afp.Mounts
import AfpfsNg.Proto.PathRequests
import AfpfsNg.Fork.HostOrder
import AfpfsNg.Fork.Contents
import AfpfsNg.Cmdline.Get
import AfpfsNg.Fuse.MountOptions
import AfpfsNg.Fuse.Clients
import AfpfsNg.Fuse.Responses
import AfpfsNg.Afp.StatusText
import AfpfsNg.Uam.RandnumKey
