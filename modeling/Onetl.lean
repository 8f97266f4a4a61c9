import Onetl.Path
import Onetl.Connection.Jdbc
import Onetl.Connection.DatetimeSql
import Onetl.Downloader.Model
import Onetl.Downloader.Machine
import Onetl.Downloader.Progress
import Onetl.Downloader.Validate
import Onetl.Downloader.Validators
import Onetl.Downloader.Front
import Onetl.Downloader.Loop
import Onetl.Downloader.Buckets
import Onetl.Downloader.Content
import Onetl.Downloader.Watermark
import Onetl.Downloader.Place
import Onetl.Downloader.Resume
import Onetl.Downloader.Report
import Onetl.Reader.Columns
